import Paddock.Proofs.Text.Quoted
import Paddock.Record.Outline
import Paddock.Text.Class

/-!
# Outline — tokens

A written outline is made of tokens: words, quoted texts and four signs, with blanks between them.
`tokens?` takes a text apart.  A word ends at the next blank or sign; a quoted text ends at the next
quote that no backslash escapes, and its escapes stay as they are.  So what comes after a word or a
quoted text does not change how it was read (`tokens?_word_append`, `tokens?_encode_append`).

An outline is *clear* if its names and labels are words and each of its leaves is one token.  The
tokens of a clear outline are the same on one line and over several, except that over several lines
a comma stands behind the last field of every record (`tokens?_compact`, `tokens?_pretty`).  Commas
before a closing brace say nothing, and without them both texts have the tokens of the outline
(`dropClosingCommas_tokens`).
-/

namespace Paddock.Outline

/-! ### Taking a text apart -/

/-- A token of a written outline; a quoted text stands without its quotes and with its escapes. -/
inductive Token where
  | word (cs : List Char)
  | quoted (cs : List Char)
  | sign (c : Char)
deriving DecidableEq

/-- What has been begun; the characters so far stand in reverse. -/
inductive Mode where
  | gap
  | word (read : List Char)
  | quoted (read : List Char)
  | escape (read : List Char)

/-- Whether a character is a token by itself. -/
def isSign (c : Char) : Bool := ['\x7b', '\x7d', ':', ','].contains c

/-- Whether a character ends the word before it and is no part of the next one. -/
def isBreak (c : Char) : Bool := isBlank c || isSign c

/-- The word that is complete when nothing continues it. -/
def Mode.pending : Mode → List Token
  | word read => [.word read.reverse]
  | _ => []

/-- The word that a character begins or continues. -/
def Mode.grow : Mode → Char → Mode
  | word read, c => word (c :: read)
  | _, c => word [c]

/-- The tokens from a mode on; a quoted text must not be left open. -/
def scan : Mode → List Char → Option (List Token)
  | .quoted _, [] | .escape _, [] => none
  | m, [] => some m.pending
  | .quoted read, c :: cs =>
    if c = '"' then (scan .gap cs).map (.quoted read.reverse :: ·)
    else if c = '\\' then scan (.escape (c :: read)) cs
    else scan (.quoted (c :: read)) cs
  | .escape read, c :: cs => scan (.quoted (c :: read)) cs
  | m, c :: cs =>
    if isBlank c then (scan .gap cs).map (m.pending ++ ·)
    else if isSign c then (scan .gap cs).map (m.pending ++ .sign c :: ·)
    else if c = '"' then (scan (.quoted []) cs).map (m.pending ++ ·)
    else scan (m.grow c) cs

/-- The tokens of a text. -/
def tokens? (cs : List Char) : Option (List Token) := scan .gap cs

/-- The tokens without the commas that stand directly before a closing brace. -/
def dropClosingCommas : List Token → List Token
  | [] => []
  | t :: ts =>
    if t = .sign ',' ∧ ts.head? = some (.sign '\x7d') then dropClosingCommas ts
    else t :: dropClosingCommas ts

/-! ### Blanks, signs and words -/

variable {c : Char} {cs rest : List Char}

theorem tokens?_blank (h : isBlank c = true) (cs : List Char) : tokens? (c :: cs) = tokens? cs := by
  simp [tokens?, scan, h, Mode.pending]

theorem tokens?_sign (h : isSign c = true) (hblank : isBlank c = false) (cs : List Char) :
    tokens? (c :: cs) = (tokens? cs).map (.sign c :: ·) := by
  simp [tokens?, scan, h, hblank, Mode.pending]

@[simp] theorem tokens?_space (cs : List Char) : tokens? (' ' :: cs) = tokens? cs :=
  tokens?_blank (by decide) cs

@[simp] theorem tokens?_newline (cs : List Char) : tokens? ('\n' :: cs) = tokens? cs :=
  tokens?_blank (by decide) cs

@[simp] theorem tokens?_opening (cs : List Char) :
    tokens? ('\x7b' :: cs) = (tokens? cs).map (.sign '\x7b' :: ·) :=
  tokens?_sign (by decide) (by decide) cs

@[simp] theorem tokens?_closing (cs : List Char) :
    tokens? ('\x7d' :: cs) = (tokens? cs).map (.sign '\x7d' :: ·) :=
  tokens?_sign (by decide) (by decide) cs

@[simp] theorem tokens?_colon (cs : List Char) :
    tokens? (':' :: cs) = (tokens? cs).map (.sign ':' :: ·) :=
  tokens?_sign (by decide) (by decide) cs

@[simp] theorem tokens?_comma (cs : List Char) :
    tokens? (',' :: cs) = (tokens? cs).map (.sign ',' :: ·) :=
  tokens?_sign (by decide) (by decide) cs

/-- Whether a text is empty or begins with a break. -/
def Ends (cs : List Char) : Prop := ∀ c ∈ cs.head?, isBreak c = true

theorem Ends.nil : Ends [] := by simp [Ends]

theorem Ends.cons (h : isBreak c = true) (cs : List Char) : Ends (c :: cs) := by
  simpa [Ends] using h

theorem Ends.space (cs : List Char) : Ends (' ' :: cs) := .cons rfl cs

theorem Ends.colon (cs : List Char) : Ends (':' :: cs) := .cons rfl cs

theorem Ends.comma (cs : List Char) : Ends (',' :: cs) := .cons rfl cs

/-- A break ends a word, and is read as if the word were not there. -/
theorem scan_word_of_ends (read : List Char) (h : Ends rest) :
    scan (.word read) rest = (tokens? rest).map (.word read.reverse :: ·) := by
  cases rest with
  | nil => rfl
  | cons c cs =>
      have hc : isBreak c = true := h c rfl
      by_cases hblank : isBlank c = true
      · simp [tokens?, scan, hblank, Mode.pending]
      · have hsign : isSign c = true := by simpa [isBreak, hblank] using hc
        simp [tokens?, scan, hblank, hsign, Mode.pending, Function.comp_def]

/-- Whether a character can stand in a word. -/
def isPlain (c : Char) : Bool := !isBreak c && c != '"'

theorem of_isPlain (h : isPlain c = true) : isBlank c = false ∧ isSign c = false ∧ c ≠ '"' := by
  simpa [isPlain, isBreak, and_assoc] using h

/-- Whether a text is a word: not empty, and without breaks and quotes. -/
def IsWord (cs : List Char) : Prop := cs ≠ [] ∧ ∀ c ∈ cs, isPlain c = true

theorem isWord_of_all (hne : cs.isEmpty = false) (h : cs.all isPlain = true) : IsWord cs :=
  ⟨List.isEmpty_eq_false_iff.1 hne, List.all_eq_true.1 h⟩

/-- Whether a text begins with a character other than a blank. -/
def Flush (cs : List Char) : Prop := ∃ c ∈ cs.head?, isBlank c = false

theorem Flush.append (h : Flush cs) (rest : List Char) : Flush (cs ++ rest) := by
  obtain ⟨c, hc, hblank⟩ := h
  exact ⟨c, by simp [Option.mem_def.1 hc], hblank⟩

theorem IsWord.flush (h : IsWord cs) : Flush cs := by
  obtain ⟨c, cs, rfl⟩ := List.exists_cons_of_ne_nil h.1
  exact ⟨c, rfl, (of_isPlain (h.2 c List.mem_cons_self)).1⟩

theorem IsWord.newline_notMem (h : IsWord cs) : '\n' ∉ cs := fun hmem =>
  absurd (h.2 '\n' hmem) (by decide)

theorem scan_word_append (read : List Char) (h : ∀ c ∈ cs, isPlain c = true) (hrest : Ends rest) :
    scan (.word read) (cs ++ rest) =
      (tokens? rest).map (.word (read.reverse ++ cs) :: ·) := by
  induction cs generalizing read with
  | nil => rw [List.nil_append, List.append_nil, scan_word_of_ends read hrest]
  | cons c cs ih =>
      obtain ⟨hblank, hsign, hquote⟩ := of_isPlain (h c List.mem_cons_self)
      have hcs := ih (c :: read) fun c hc => h c (List.mem_cons_of_mem _ hc)
      simpa [scan, hblank, hsign, hquote, Mode.grow] using hcs

/-- A word is one token, whatever comes behind its end. -/
theorem tokens?_word_append (h : IsWord cs) (hrest : Ends rest) :
    tokens? (cs ++ rest) = (tokens? rest).map (.word cs :: ·) := by
  cases cs with
  | nil => exact absurd rfl h.1
  | cons c cs =>
      obtain ⟨hblank, hsign, hquote⟩ := of_isPlain (h.2 c List.mem_cons_self)
      have hcs := scan_word_append [c] (fun c hc => h.2 c (List.mem_cons_of_mem _ hc)) hrest
      simpa [tokens?, scan, hblank, hsign, hquote, Mode.grow] using hcs

/-! ### Quoted texts -/

/-- Characters other than quotes and backslashes leave a quoted text open. -/
theorem scan_quoted_append (read : List Char) (hquote : '"' ∉ cs) (hslash : '\\' ∉ cs)
    (rest : List Char) :
    scan (.quoted read) (cs ++ rest) = scan (.quoted (cs.reverse ++ read)) rest := by
  induction cs generalizing read with
  | nil => rfl
  | cons c cs ih =>
      obtain ⟨hquote, hquotes⟩ := not_or.1 (mt List.mem_cons.2 hquote)
      obtain ⟨hslash, hslashes⟩ := not_or.1 (mt List.mem_cons.2 hslash)
      rw [List.cons_append, scan, if_neg (Ne.symm hquote), if_neg (Ne.symm hslash),
        ih _ hquotes hslashes, List.reverse_cons, List.append_assoc]
      rfl

/-- An escape leaves a quoted text open. -/
theorem scan_escape_append (read : List Char) (c : Char) (rest : List Char) :
    scan (.quoted read) (Quoted.escape c ++ rest) =
      scan (.quoted ((Quoted.escape c).reverse ++ read)) rest := by
  rcases Quoted.escape_cases c with ⟨l, -, h⟩ | ⟨-, h⟩ | ⟨hletter, h⟩
  · simp [h, scan]
  · have hquote := Quoted.notMem_hexDigits '"' (by decide) c
    have hslash := Quoted.notMem_hexDigits '\\' (by decide) c
    have hquotes : '"' ∉ '\x7b' :: (Quoted.hexDigits c ++ ['\x7d']) := by simp [hquote]
    have hslashes : '\\' ∉ '\x7b' :: (Quoted.hexDigits c ++ ['\x7d']) := by simp [hslash]
    have hbody := scan_quoted_append ('u' :: '\\' :: read) hquotes hslashes rest
    simpa [h, scan] using hbody
  · refine scan_quoted_append read ?_ ?_ rest <;> rw [h, List.mem_singleton] <;> rintro rfl <;>
      cases hletter

theorem scan_flatMap_escape_append (read cs rest : List Char) :
    scan (.quoted read) (cs.flatMap Quoted.escape ++ '"' :: rest) =
      (tokens? rest).map (.quoted (read.reverse ++ cs.flatMap Quoted.escape) :: ·) := by
  induction cs generalizing read with
  | nil => simp [scan, tokens?]
  | cons c cs ih =>
      rw [List.flatMap_cons, List.append_assoc, scan_escape_append, ih, List.reverse_append,
        List.reverse_reverse, List.append_assoc]

/-- A quoted text is one token, whatever comes behind it. -/
theorem tokens?_encode_append (cs rest : List Char) :
    tokens? (Quoted.encode cs ++ rest) =
      (tokens? rest).map (.quoted (cs.flatMap Quoted.escape) :: ·) := by
  have hsplit : Quoted.encode cs ++ rest = '"' :: (cs.flatMap Quoted.escape ++ '"' :: rest) := by
    simp [Quoted.encode]
  have hblank : isBlank '"' = false := by decide
  have hsign : isSign '"' = false := by decide
  simp [hsplit, tokens?, scan, hblank, hsign, scan_flatMap_escape_append, Mode.pending,
    Function.comp_def]

end Paddock.Outline

namespace Paddock

/-! ### The tokens of an outline -/

/-- A text is one token other than a sign, whatever comes behind its end.  It stands on one line and
begins where it is put. -/
structure Outline.IsAtom (text : String) (t : Outline.Token) : Prop where
  tokens?_append : ∀ {rest}, Outline.Ends rest →
    Outline.tokens? (text.toList ++ rest) = (Outline.tokens? rest).map (t :: ·)
  ne_sign : ∀ c, t ≠ .sign c
  newline_notMem : '\n' ∉ text.toList
  flush : Outline.Flush text.toList

mutual

/-- Names and labels are words, and each leaf is one token. -/
def Outline.Clear : Outline → Prop
  | .leaf text => ∃ t, Outline.IsAtom text t
  | .node name fields => Outline.IsWord name.toList ∧ fields.Clear

/-- The same of the fields of a node. -/
def Fields.Clear : Fields → Prop
  | .nil => True
  | .cons label value rest => Outline.IsWord label.toList ∧ value.Clear ∧ rest.Clear

end

mutual

/-- The tokens of an outline, with some tokens behind the last field of each node. -/
def Outline.tokens (last : List Outline.Token) : Outline → List Outline.Token
  | .leaf text => (Outline.tokens? text.toList).getD []
  | .node name fields =>
    .word name.toList :: .sign '\x7b' :: (fields.tokens last ++ [.sign '\x7d'])

/-- The tokens of some fields, with commas between the fields and some tokens behind the last. -/
def Fields.tokens (last : List Outline.Token) : Fields → List Outline.Token
  | .nil => []
  | .cons label value .nil => .word label.toList :: .sign ':' :: (value.tokens last ++ last)
  | .cons label value (.cons label' value' rest) =>
    .word label.toList :: .sign ':' ::
      (value.tokens last ++ .sign ',' :: Fields.tokens last (.cons label' value' rest))

end

open Outline

theorem Outline.IsAtom.tokens_leaf {text : String} {t : Token} (h : IsAtom text t)
    (last : List Token) : (Outline.leaf text).tokens last = [t] := by
  have htokens := h.tokens?_append Ends.nil
  rw [List.append_nil] at htokens
  rw [tokens, htokens]
  rfl

/-! ### On one line -/

mutual

theorem Outline.tokens?_compact_append : ∀ {o : Outline}, o.Clear → ∀ {rest : List Char},
    Ends rest → tokens? (o.compact.toList ++ rest) = (tokens? rest).map (o.tokens [] ++ ·)
  | .leaf text, h, rest, hrest => by
      obtain ⟨t, ht⟩ := h
      rw [ht.tokens_leaf, Outline.compact]
      exact ht.tokens?_append hrest
  | .node name fields, h, rest, hrest => by
      have hname := tokens?_word_append h.1 (.space ('\x7b' :: ' ' ::
        (fields.compact.toList ++ ' ' :: '\x7d' :: rest)))
      have hbody := Fields.tokens?_compact_append h.2 (.space ('\x7d' :: rest))
      simpa [Outline.compact, Outline.tokens, hbody, Function.comp_def] using hname

theorem Fields.tokens?_compact_append : ∀ {fs : Fields}, fs.Clear → ∀ {rest : List Char},
    Ends rest → tokens? (fs.compact.toList ++ rest) = (tokens? rest).map (fs.tokens [] ++ ·)
  | .nil, _, rest, _ => by simp [Fields.compact, Fields.tokens]
  | .cons label value .nil, h, rest, hrest => by
      have hlabel := tokens?_word_append h.1 (.colon (' ' :: (value.compact.toList ++ rest)))
      have hvalue := Outline.tokens?_compact_append h.2.1 hrest
      simpa [Fields.compact, Fields.tokens, hvalue, Function.comp_def] using hlabel
  | .cons label value (.cons label' value' more), h, rest, hrest => by
      have hlabel := tokens?_word_append h.1 (.colon (' ' :: (value.compact.toList ++
        ',' :: ' ' :: ((Fields.cons label' value' more).compact.toList ++ rest))))
      have hvalue := Outline.tokens?_compact_append h.2.1
        (.comma (' ' :: ((Fields.cons label' value' more).compact.toList ++ rest)))
      have hmore := Fields.tokens?_compact_append h.2.2 hrest
      simpa [Fields.compact, Fields.tokens, hvalue, hmore, Function.comp_def] using hlabel

end

/-- **The tokens of a clear outline on one line.** -/
theorem Outline.tokens?_compact {o : Outline} (h : o.Clear) :
    tokens? o.compact.toList = some (o.tokens []) := by
  have htokens := tokens?_compact_append h Ends.nil
  rw [List.append_nil] at htokens
  rw [htokens]
  simp [tokens?, scan, Mode.pending]

/-! ### A line for every field -/

theorem tokens?_indent_append (depth : Nat) (rest : List Char) :
    tokens? ((indent depth).toList ++ rest) = tokens? rest := by
  rw [indent, String.toList_ofList]
  induction 4 * depth with
  | zero => rfl
  | succ n ih => rw [List.replicate_succ, List.cons_append, tokens?_space, ih]

/-- With a comma behind the last field, every field has a comma behind it. -/
theorem Fields.tokens_cons (label : String) (value : Outline) (rest : Fields) :
    (Fields.cons label value rest).tokens [.sign ','] =
      .word label.toList :: .sign ':' ::
        (value.tokens [.sign ','] ++ .sign ',' :: rest.tokens [.sign ',']) := by
  cases rest <;> simp [Fields.tokens]

mutual

theorem Outline.tokens?_prettyAt_append : ∀ {o : Outline}, o.Clear → ∀ (depth : Nat)
    {rest : List Char}, Ends rest → tokens? ((o.prettyAt depth).toList ++ rest) =
      (tokens? rest).map (o.tokens [.sign ','] ++ ·)
  | .leaf text, h, depth, rest, hrest => by
      obtain ⟨t, ht⟩ := h
      rw [ht.tokens_leaf, Outline.prettyAt]
      exact ht.tokens?_append hrest
  | .node name fields, h, depth, rest, hrest => by
      have hname := tokens?_word_append h.1 (.space ('\x7b' :: '\n' ::
        ((fields.prettyAt (depth + 1)).toList ++ ((indent depth).toList ++ '\x7d' :: rest))))
      have hbody := Fields.tokens?_prettyAt_append h.2 (depth + 1)
        ((indent depth).toList ++ '\x7d' :: rest)
      simpa [Outline.prettyAt, Outline.tokens, hbody, tokens?_indent_append, Function.comp_def]
        using hname

theorem Fields.tokens?_prettyAt_append : ∀ {fs : Fields}, fs.Clear → ∀ (depth : Nat)
    (rest : List Char), tokens? ((fs.prettyAt depth).toList ++ rest) =
      (tokens? rest).map (fs.tokens [.sign ','] ++ ·)
  | .nil, _, depth, rest => by simp [Fields.prettyAt, Fields.tokens]
  | .cons label value more, h, depth, rest => by
      have hlabel := tokens?_word_append h.1 (.colon (' ' :: ((value.prettyAt depth).toList ++
        ',' :: '\n' :: ((more.prettyAt depth).toList ++ rest))))
      have hvalue := Outline.tokens?_prettyAt_append h.2.1 depth
        (.comma ('\n' :: ((more.prettyAt depth).toList ++ rest)))
      have hmore := Fields.tokens?_prettyAt_append h.2.2 depth rest
      simpa [Fields.prettyAt, Fields.tokens_cons, hvalue, hmore, tokens?_indent_append,
        Function.comp_def] using hlabel

end

/-- **The tokens of a clear outline over several lines.** -/
theorem Outline.tokens?_pretty {o : Outline} (h : o.Clear) :
    tokens? o.pretty.toList = some (o.tokens [.sign ',']) := by
  have htokens := tokens?_prettyAt_append h 0 Ends.nil
  rw [List.append_nil] at htokens
  rw [pretty, htokens]
  simp [tokens?, scan, Mode.pending]

/-! ### Closing commas -/

theorem dropClosingCommas_cons {t : Token} (h : t ≠ .sign ',') (ts : List Token) :
    dropClosingCommas (t :: ts) = t :: dropClosingCommas ts :=
  if_neg fun ht => h ht.1

/-- A comma between two fields stays: a label follows it. -/
theorem dropClosingCommas_comma_tokens (label : String) (value : Outline) (more : Fields)
    (last ts : List Token) :
    dropClosingCommas (.sign ',' :: ((Fields.cons label value more).tokens last ++ ts)) =
      .sign ',' :: dropClosingCommas ((Fields.cons label value more).tokens last ++ ts) := by
  have hhead : ((Fields.cons label value more).tokens last ++ ts).head? =
      some (.word label.toList) := by
    cases more <;> simp [Fields.tokens]
  refine if_neg fun h => ?_
  rw [hhead] at h
  simp at h

mutual

theorem Outline.dropClosingCommas_append (last : List Token)
    (hlast : ∀ ts, dropClosingCommas (last ++ .sign '\x7d' :: ts) =
      .sign '\x7d' :: dropClosingCommas ts) : ∀ {o : Outline}, o.Clear → ∀ ts,
    dropClosingCommas (o.tokens last ++ ts) = o.tokens [] ++ dropClosingCommas ts
  | .leaf text, h, ts => by
      obtain ⟨t, ht⟩ := h
      rw [ht.tokens_leaf, ht.tokens_leaf]
      exact dropClosingCommas_cons (ht.ne_sign ',') ts
  | .node name fields, h, ts => by
      have hbody := Fields.dropClosingCommas_append last hlast h.2 ts
      simpa [Outline.tokens, dropClosingCommas_cons] using hbody

theorem Fields.dropClosingCommas_append (last : List Token)
    (hlast : ∀ ts, dropClosingCommas (last ++ .sign '\x7d' :: ts) =
      .sign '\x7d' :: dropClosingCommas ts) : ∀ {fs : Fields}, fs.Clear → ∀ ts,
    dropClosingCommas (fs.tokens last ++ .sign '\x7d' :: ts) =
      fs.tokens [] ++ .sign '\x7d' :: dropClosingCommas ts
  | .nil, _, ts => by simp [Fields.tokens, dropClosingCommas_cons]
  | .cons label value .nil, h, ts => by
      have hvalue := Outline.dropClosingCommas_append last hlast h.2.1 (last ++ .sign '\x7d' :: ts)
      rw [hlast] at hvalue
      simpa [Fields.tokens, dropClosingCommas_cons] using hvalue
  | .cons label value (.cons label' value' more), h, ts => by
      have hvalue := Outline.dropClosingCommas_append last hlast h.2.1 (.sign ',' ::
        ((Fields.cons label' value' more).tokens last ++ .sign '\x7d' :: ts))
      have hmore := Fields.dropClosingCommas_append last hlast h.2.2 ts
      rw [dropClosingCommas_comma_tokens, hmore] at hvalue
      simpa [Fields.tokens, dropClosingCommas_cons] using hvalue

end

/-- **Without closing commas both texts have the tokens of the outline.** -/
theorem Outline.dropClosingCommas_tokens {o : Outline} (h : o.Clear) :
    dropClosingCommas (o.tokens []) = o.tokens [] ∧
      dropClosingCommas (o.tokens [.sign ',']) = o.tokens [] := by
  have hnone := dropClosingCommas_append [] (fun ts => dropClosingCommas_cons (by simp) ts) h []
  have hcomma := dropClosingCommas_append [.sign ','] (fun ts =>
    (if_pos (by simp)).trans (dropClosingCommas_cons (by simp) ts)) h []
  simp only [List.append_nil, dropClosingCommas] at hnone hcomma
  exact ⟨hnone, hcomma⟩

end Paddock
