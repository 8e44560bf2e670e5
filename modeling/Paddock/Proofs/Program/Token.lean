import Paddock.Program.Syntax

/-!
# Program — tokens

A source text is read one character at a time.  The `Mode` says what has been begun: a word, a
number, a text in quotes, a comment, or nothing.  `step?` is what one character makes of a mode and
which tokens it completes; `feed?` reads a whole text.  Tokens are as long as they can be: a word
takes every letter and digit that follows, and a number takes letters, points and the sign of an
exponent besides.  Before anything else is looked at, a backslash at the end of a line joins the
line to the next one (`splice`).

`Reads m cs ts n` says that `cs` takes mode `m` to mode `n` and completes `ts`, and that no line of
it is joined to another.  Such readings compose (`Reads.append`).  A text that `Spells` its tokens
is complete as soon as a break follows, and one that `Lexes` is complete by itself.  A text literal
lexes as the text it was made from, whatever its characters are (`lexes_encodeText`).
-/

namespace Paddock.Program

/-! ### Characters -/

/-- Whether a character may begin a word. -/
def isNameStart (c : Char) : Bool := c.isAlpha || c == '_'

/-- Whether a character may stand in a word. -/
def isNameChar (c : Char) : Bool := c.isAlphanum || c == '_'

/-- Whether a character only keeps tokens apart. -/
def isSpace (c : Char) : Bool := [' ', '\n', '\t', '\x0b', '\x0c'].contains c

/-- Whether a character is a token by itself. -/
def isSign (c : Char) : Bool := ['\x7b', '\x7d', '(', ')', ';', ',', '=', '+', '-', '*'].contains c

/-- Whether a character ends whatever word or number stands before it. -/
def isBreak (c : Char) : Bool := !(isNameChar c || ['.', '+', '-'].contains c)

/-- What an escape stands for. -/
def unescape? : Char → Option Char
  | '"' => some '"'
  | '\\' => some '\\'
  | 'n' => some '\n'
  | _ => none

/-! ### Tokens -/

/-- A token of a source text; a text stands without its quotes and escapes. -/
inductive Token where
  | word (name : String)
  | number (cs : List Char)
  | text (s : String)
  | sign (c : Char)
deriving DecidableEq

/-- What has been begun; the characters so far stand in reverse. -/
inductive Mode where
  | gap
  | word (read : List Char)
  | number (read : List Char)
  | point
  | text (read : List Char)
  | escape (read : List Char)
  | slash
  | lineComment
  | comment
  | commentStar
deriving DecidableEq

namespace Mode

/-- The token that is complete when nothing continues it. -/
def pending : Mode → List Token
  | word read => [.word (String.ofList read.reverse)]
  | number read => [.number read.reverse]
  | point => [.sign '.']
  | _ => []

/-- What a character makes of the word or number before it, if it belongs to it. -/
def grow? : Mode → Char → Option Mode
  | word read, c => if isNameChar c then some (word (c :: read)) else none
  | number read, c =>
    let afterExponent := [some 'e', some 'E', some 'p', some 'P'].contains read.head?
    if isNameChar c || c == '.' || ((c == '+' || c == '-') && afterExponent) then
      some (number (c :: read))
    else none
  | point, c => if c.isDigit then some (number [c, '.']) else none
  | _, _ => none

end Mode

/-- What a character begins where nothing has been begun. -/
def begin? (c : Char) : Option (List Token × Mode) :=
  if isSpace c then some ([], .gap)
  else if isNameStart c then some ([], .word [c])
  else if c.isDigit then some ([], .number [c])
  else if c = '.' then some ([], .point)
  else if c = '"' then some ([], .text [])
  else if c = '/' then some ([], .slash)
  else if isSign c then some ([.sign c], .gap)
  else none

/-- The tokens a character completes, and the mode after it. -/
def step? : Mode → Char → Option (List Token × Mode)
  | .text read, c =>
    if c = '"' then some ([.text (String.ofList read.reverse)], .gap)
    else if c = '\\' then some ([], .escape read)
    else if c = '\n' then none
    else some ([], .text (c :: read))
  | .escape read, c => (unescape? c).map fun x => ([], .text (x :: read))
  | .slash, c =>
    if c = '/' then some ([], .lineComment)
    else if c = '*' then some ([], .comment)
    else none
  | .lineComment, c => some ([], if c = '\n' then .gap else .lineComment)
  | .comment, c => some ([], if c = '*' then .commentStar else .comment)
  | .commentStar, c =>
    some ([], if c = '/' then .gap else if c = '*' then .commentStar else .comment)
  | m, c =>
    match m.grow? c with
    | some m' => some ([], m')
    | none => (begin? c).map fun (ts, m') => (m.pending ++ ts, m')

/-- The tokens a text completes, and the mode after it. -/
def feed? : Mode → List Char → Option (List Token × Mode)
  | m, [] => some ([], m)
  | m, c :: cs =>
    (step? m c).bind fun (ts, m') => (feed? m' cs).map fun (us, n) => (ts ++ us, n)

/-- The tokens a text ends with in a mode; a text or comment must not be left open. -/
def Mode.close? : Mode → Option (List Token)
  | .text _ | .escape _ | .slash | .comment | .commentStar => none
  | m => some m.pending

/-- A text with every continued line joined to the next one. -/
def splice : List Char → List Char
  | [] => []
  | '\\' :: '\n' :: cs => splice cs
  | c :: cs => c :: splice cs

/-- The tokens of a text whose lines are joined. -/
def tokens? (cs : List Char) : Option (List Token) :=
  (feed? .gap cs).bind fun (ts, m) => m.close?.map (ts ++ ·)

/-! ### Joining lines -/

/-- No line of `cs` is joined to another, whatever follows. -/
def Unbroken (cs : List Char) : Prop := ∀ rest, splice (cs ++ rest) = cs ++ splice rest

theorem splice_cons_of_ne {c : Char} (h : c ≠ '\\') (cs : List Char) :
    splice (c :: cs) = c :: splice cs := by
  rw [splice.eq_3]
  rintro rest rfl
  exact absurd rfl h

theorem splice_cons_of_head_ne {c : Char} {cs : List Char} (h : cs.head? ≠ some '\n') :
    splice (c :: cs) = c :: splice cs := by
  rw [splice.eq_3]
  rintro rest - rfl
  exact h rfl

theorem Unbroken.nil : Unbroken [] := fun _ => rfl

theorem Unbroken.append {xs ys : List Char} (hx : Unbroken xs) (hy : Unbroken ys) :
    Unbroken (xs ++ ys) := by
  intro rest
  rw [List.append_assoc, hx, hy, List.append_assoc]

theorem unbroken_of_notMem {cs : List Char} (h : '\\' ∉ cs) : Unbroken cs := by
  intro rest
  induction cs with
  | nil => rfl
  | cons c cs ih =>
      obtain ⟨hc, hcs⟩ := not_or.1 (mt List.mem_cons.2 h)
      rw [List.cons_append, splice_cons_of_ne (Ne.symm hc), ih hcs, List.cons_append]

theorem head?_flatMap_escape (cs rest : List Char) :
    (cs.flatMap escape ++ '"' :: rest).head? ≠ some '\n' := by
  cases cs with
  | nil => simp
  | cons c cs =>
      rw [List.flatMap_cons, List.append_assoc]
      unfold escape
      split <;> simp_all

/-- A line break inside a text is escaped, so no backslash of a text literal ends a line. -/
theorem unbroken_encodeText (cs : List Char) : Unbroken (encodeText cs) := by
  intro rest
  have hbody : splice (cs.flatMap escape ++ '"' :: rest) =
      cs.flatMap escape ++ '"' :: splice rest := by
    induction cs with
    | nil => exact splice_cons_of_ne (by decide) rest
    | cons c cs ih =>
        have hhead := head?_flatMap_escape cs rest
        rw [List.flatMap_cons, List.append_assoc, List.append_assoc, ← ih]
        generalize cs.flatMap escape ++ '"' :: rest = tail at hhead
        -- only an escaped backslash has its second character before `tail`
        unfold escape
        split
        · rw [List.cons_append, splice_cons_of_head_ne (by simp)]
          exact congrArg _ (splice_cons_of_ne (by decide) tail)
        · rw [List.cons_append, splice_cons_of_head_ne (by simp)]
          exact congrArg _ (splice_cons_of_head_ne hhead)
        · rw [List.cons_append, splice_cons_of_head_ne (by simp)]
          exact congrArg _ (splice_cons_of_ne (by decide) tail)
        · rename_i hslash _
          exact splice_cons_of_ne hslash tail
  have htext : encodeText cs ++ rest = '"' :: (cs.flatMap escape ++ '"' :: rest) := by
    simp [encodeText]
  rw [htext, splice_cons_of_ne (by decide), hbody]
  simp [encodeText]

/-! ### Readings -/

theorem step?_gap (c : Char) : step? .gap c = begin? c := by
  simp [step?, Mode.grow?, Mode.pending]

theorem feed?_cons_iff {m o : Mode} {c : Char} {cs : List Char} {ts : List Token} :
    feed? m (c :: cs) = some (ts, o) ↔
      ∃ us n vs, step? m c = some (us, n) ∧ feed? n cs = some (vs, o) ∧ us ++ vs = ts := by
  simp only [feed?, Option.bind_eq_some_iff, Option.map_eq_some_iff, Prod.exists, Prod.mk.injEq]
  constructor
  · rintro ⟨us, n, hstep, vs, o, hfeed, heq, rfl⟩
    exact ⟨us, n, vs, hstep, hfeed, heq⟩
  · rintro ⟨us, n, vs, hstep, hfeed, heq⟩
    exact ⟨us, n, hstep, vs, o, hfeed, heq, rfl⟩

theorem feed?_append {m n o : Mode} {xs ys : List Char} {ts us : List Token}
    (hx : feed? m xs = some (ts, n)) (hy : feed? n ys = some (us, o)) :
    feed? m (xs ++ ys) = some (ts ++ us, o) := by
  induction xs generalizing m ts with
  | nil =>
      obtain ⟨rfl, rfl⟩ := Prod.mk.inj (Option.some.inj hx)
      exact hy
  | cons c xs ih =>
      obtain ⟨vs, n', ws, hstep, hfeed, rfl⟩ := feed?_cons_iff.1 hx
      rw [List.append_assoc]
      exact feed?_cons_iff.2 ⟨vs, n', ws ++ us, hstep, ih hfeed, rfl⟩

/-- `cs` takes mode `m` to mode `n` and completes `ts`, and no line of it is continued. -/
structure Reads (m : Mode) (cs : List Char) (ts : List Token) (n : Mode) : Prop where
  unbroken : Unbroken cs
  feed?_eq : feed? m cs = some (ts, n)

/-- A text that is complete by itself. -/
abbrev Lexes (cs : List Char) (ts : List Token) : Prop := Reads .gap cs ts .gap

/-- A mode that every break ends. -/
def Mode.Settled (m : Mode) : Prop :=
  ∀ c, isBreak c = true → step? m c = (begin? c).map fun (ts, n) => (m.pending ++ ts, n)

/-- A text that is complete as soon as a break follows it. -/
def Spells (cs : List Char) (ts : List Token) : Prop :=
  ∃ us m, Reads .gap cs us m ∧ m.Settled ∧ us ++ m.pending = ts

theorem Mode.settled_gap : Mode.gap.Settled := fun _ _ => rfl

theorem Mode.settled_word (read : List Char) : (Mode.word read).Settled := by
  intro c hc
  have hname : isNameChar c = false := by
    simp only [isBreak, Bool.not_eq_true', Bool.or_eq_false_iff] at hc
    exact hc.1
  simp [step?, Mode.grow?, hname]

theorem Mode.settled_number (read : List Char) : (Mode.number read).Settled := by
  intro c hc
  simp only [isBreak, Bool.not_eq_true', Bool.or_eq_false_iff, List.contains_cons,
    List.contains_nil] at hc
  obtain ⟨hname, hpoint, hplus, hminus, -⟩ := hc
  simp [step?, Mode.grow?, hname, hpoint, hplus, hminus]

namespace Reads

variable {m n o : Mode} {xs ys : List Char} {ts us : List Token}

theorem nil (m : Mode) : Reads m [] [] m := ⟨.nil, rfl⟩

theorem congr (h : Reads m xs ts n) (hx : xs = ys) (ht : ts = us) : Reads m ys us n := hx ▸ ht ▸ h

theorem append (hx : Reads m xs ts n) (hy : Reads n ys us o) : Reads m (xs ++ ys) (ts ++ us) o :=
  ⟨hx.unbroken.append hy.unbroken, feed?_append hx.feed?_eq hy.feed?_eq⟩

/-- Readings of a list of texts, one after the other. -/
theorem flatMap {α : Type} {text : α → List Char} {tokens : α → List Token} :
    ∀ {xs : List α}, (∀ x ∈ xs, Lexes (text x) (tokens x)) →
      Lexes (xs.flatMap text) (xs.flatMap tokens)
  | [], _ => .nil _
  | x :: xs, h => (h x (by simp)).append (flatMap fun y hy => h y (by simp [hy]))

theorem spells (h : Lexes xs ts) : Spells xs ts :=
  ⟨ts, .gap, h, Mode.settled_gap, List.append_nil ts⟩

end Reads

/-- Whether a text begins with a break. -/
def startsBreak : List Char → Bool
  | [] => false
  | c :: _ => isBreak c

namespace Spells

variable {xs ys : List Char} {ts us : List Token}

theorem nil : Spells [] [] := (Reads.nil .gap).spells

theorem congr (h : Spells xs ts) (hx : xs = ys) (ht : ts = us) : Spells ys us := hx ▸ ht ▸ h

theorem unique (h : Spells xs ts) (h' : Spells xs us) : ts = us := by
  obtain ⟨vs, m, hread, -, rfl⟩ := h
  obtain ⟨ws, n, hread', -, rfl⟩ := h'
  obtain ⟨rfl, rfl⟩ := Prod.mk.inj (Option.some.inj (hread.feed?_eq.symm.trans hread'.feed?_eq))
  rfl

theorem of_reads {m : Mode} (h : Reads .gap xs us m) (hm : m.Settled) :
    Spells xs (us ++ m.pending) := ⟨us, m, h, hm, rfl⟩

theorem of_lexes (hx : Lexes xs ts) (hy : Spells ys us) : Spells (xs ++ ys) (ts ++ us) := by
  obtain ⟨vs, m, hread, hm, rfl⟩ := hy
  exact ⟨ts ++ vs, m, hx.append hread, hm, List.append_assoc _ _ _⟩

/-- What a break begins after a spelled text, it begins by itself. -/
theorem reads {n : Mode} (hx : Spells xs ts) (hc : startsBreak ys = true)
    (hy : Reads .gap ys us n) : Reads .gap (xs ++ ys) (ts ++ us) n := by
  obtain ⟨vs, m, hread, hm, rfl⟩ := hx
  refine ⟨hread.unbroken.append hy.unbroken, ?_⟩
  cases ys with
  | nil => cases hc
  | cons c ys =>
      -- the break ends what is pending and begins the rest as it would in a gap
      obtain ⟨bs, o, rest, hbegin, hfeed, rfl⟩ := feed?_cons_iff.1 hy.feed?_eq
      rw [step?_gap] at hbegin
      rw [List.append_assoc]
      refine feed?_append hread.feed?_eq
        (feed?_cons_iff.2 ⟨m.pending ++ bs, o, rest, ?_, hfeed, List.append_assoc _ _ _⟩)
      rw [hm c hc, hbegin]
      rfl

end Spells

/-! ### Words -/

/-- Whether a text is a word. -/
def isWord (s : String) : Bool :=
  match s.toList with
  | [] => false
  | c :: cs => isNameStart c && cs.all isNameChar

theorem begin?_of_isDigit {c : Char} (h : c.isDigit = true) :
    begin? c = some ([], .number [c]) := by
  -- there are only ten digits to try
  have hten : ∀ n : Fin 10,
      begin? (Char.ofNat (48 + n)) = some ([], .number [Char.ofNat (48 + n)]) := by decide
  have hrange : 48 ≤ c.toNat ∧ c.toNat ≤ 57 := by
    simpa [Char.isDigit, UInt32.le_iff_toNat_le] using h
  have hc : Char.ofNat (48 + (c.toNat - 48)) = c := by
    rw [Nat.add_sub_cancel' hrange.1, Char.ofNat_toNat]
  have hdigit := hten ⟨c.toNat - 48, by omega⟩
  rwa [hc] at hdigit

theorem begin?_of_isNameStart {c : Char} (h : isNameStart c = true) :
    begin? c = some ([], .word [c]) := by
  have hspace : isSpace c = false := by
    rw [Bool.eq_false_iff]
    intro hs
    have hmem : c ∈ [' ', '\n', '\t', '\x0b', '\x0c'] := List.contains_iff_mem.1 hs
    have hnone : [' ', '\n', '\t', '\x0b', '\x0c'].all (!isNameStart ·) = true := rfl
    have hstart := List.all_eq_true.1 hnone c hmem
    rw [h] at hstart
    cases hstart
  rw [begin?, hspace, if_neg (by decide), h, if_pos rfl]

theorem feed?_word (read : List Char) {cs : List Char} (h : cs.all isNameChar = true) :
    feed? (.word read) cs = some ([], .word (cs.reverse ++ read)) := by
  induction cs generalizing read with
  | nil => rfl
  | cons c cs ih =>
      obtain ⟨hc, hcs⟩ := Bool.and_eq_true_iff.1 (List.all_cons ▸ h)
      rw [List.reverse_cons, List.append_assoc]
      refine feed?_cons_iff.2 ⟨[], .word (c :: read), [], ?_, ih (c :: read) hcs, rfl⟩
      simp [step?, Mode.grow?, hc]

/-- A word is read as itself, up to the character that ends it. -/
theorem reads_word {s : String} (h : isWord s = true) :
    Reads .gap s.toList [] (.word s.toList.reverse) := by
  rw [isWord] at h
  split at h
  · cases h
  · rename_i c cs hs
    obtain ⟨hc, hcs⟩ := Bool.and_eq_true_iff.1 h
    rw [hs]
    refine ⟨unbroken_of_notMem fun hmem => ?_, ?_⟩
    · rcases List.mem_cons.1 hmem with rfl | hmem
      · cases hc
      · exact absurd (List.all_eq_true.1 hcs _ hmem) (by decide)
    · rw [List.reverse_cons]
      refine feed?_cons_iff.2 ⟨[], .word [c], [], ?_, feed?_word [c] hcs, rfl⟩
      rw [step?_gap, begin?_of_isNameStart hc]

theorem Mode.pending_word (s : String) : (Mode.word s.toList.reverse).pending = [.word s] := by
  rw [pending, List.reverse_reverse, String.ofList_toList]

theorem spells_word {s : String} (h : isWord s = true) : Spells s.toList [.word s] := by
  have hspells := Spells.of_reads (reads_word h) (Mode.settled_word s.toList.reverse)
  rwa [Mode.pending_word] at hspells

/-- A word after a point is no part of a number. -/
theorem reads_point_word {s : String} (h : isWord s = true) :
    Reads .point s.toList [.sign '.'] (.word s.toList.reverse) := by
  obtain ⟨hunbroken, hfeed⟩ := reads_word h
  refine ⟨hunbroken, ?_⟩
  rw [isWord] at h
  split at h
  · cases h
  · rename_i c cs hs
    obtain ⟨hc, -⟩ := Bool.and_eq_true_iff.1 h
    have hdigit : c.isDigit = false := by
      rw [Bool.eq_false_iff]
      intro hdigit
      -- a digit begins a number, and what begins a word does not
      have hbegin := begin?_of_isDigit hdigit
      rw [begin?_of_isNameStart hc] at hbegin
      cases hbegin
    rw [hs] at hfeed ⊢
    obtain ⟨us, n, vs, hstep, hrest, hnil⟩ := feed?_cons_iff.1 hfeed
    obtain ⟨rfl, rfl⟩ := List.append_eq_nil_iff.1 hnil
    rw [step?_gap] at hstep
    refine feed?_cons_iff.2 ⟨[.sign '.'], n, [], ?_, hrest, rfl⟩
    simp [step?, Mode.grow?, hdigit, hstep, Mode.pending]

/-- A word after a point, as in a designator. -/
theorem spells_point_word {s : String} (h : isWord s = true) :
    Spells ('.' :: s.toList) [.sign '.', .word s] := by
  have hpoint : Reads .gap ['.'] [] .point := ⟨unbroken_of_notMem (by decide), rfl⟩
  have hspells := Spells.of_reads (hpoint.append (reads_point_word h))
    (Mode.settled_word s.toList.reverse)
  rwa [Mode.pending_word] at hspells

/-- A word, a point and a word, as in a member. -/
theorem spells_word_point_word {s t : String} (hs : isWord s = true) (ht : isWord t = true) :
    Spells (s.toList ++ '.' :: t.toList) [.word s, .sign '.', .word t] := by
  have hpoint : Reads (.word s.toList.reverse) ['.'] [.word s] .point :=
    ⟨unbroken_of_notMem (by decide), by
      rw [← Mode.pending_word]
      exact feed?_cons_iff.2 ⟨_, _, [], rfl, rfl, by simp⟩⟩
  have hspells := Spells.of_reads ((reads_word hs).append (hpoint.append (reads_point_word ht)))
    (Mode.settled_word t.toList.reverse)
  rwa [Mode.pending_word] at hspells

/-! ### Text literals -/

theorem feed?_escape (read : List Char) (c : Char) :
    feed? (.text read) (escape c) = some ([], .text (c :: read)) := by
  unfold escape
  split
  · rfl
  · rfl
  · rfl
  · rename_i hquote hslash hline
    refine feed?_cons_iff.2 ⟨[], .text (c :: read), [], ?_, rfl, rfl⟩
    rw [step?, if_neg hquote, if_neg hslash, if_neg hline]

theorem feed?_flatMap_escape (read cs : List Char) :
    feed? (.text read) (cs.flatMap escape) = some ([], .text (cs.reverse ++ read)) := by
  induction cs generalizing read with
  | nil => rfl
  | cons c cs ih =>
      rw [List.flatMap_cons, List.reverse_cons, List.append_assoc]
      exact feed?_append (feed?_escape read c) (ih (c :: read))

/-- **A text literal lexes as its text.**  The quote that closes it is the first one that no
backslash escapes. -/
theorem lexes_encodeText (cs : List Char) :
    Lexes (encodeText cs) [.text (String.ofList cs)] := by
  refine ⟨unbroken_encodeText cs, ?_⟩
  have hopen : feed? .gap ['"'] = some ([], .text []) := rfl
  have hclose : feed? (.text cs.reverse) ['"'] = some ([.text (String.ofList cs)], .gap) := by
    simp [feed?, step?]
  have hbody := feed?_flatMap_escape [] cs
  rw [List.append_nil] at hbody
  exact feed?_append hopen (feed?_append hbody hclose)

end Paddock.Program
