import Paddock.Proofs.Program.Legible

/-!
# Program — the text of a program

However a node is laid out, its text lexes as its tokens: columns, line breaks and headings leave no
trace.  One lemma for each `text` function says so, and `ofSource?_text` puts reading and writing
together: the text of a legible program is read as the program.
-/

namespace Paddock.Program

/-! ### Fixed texts and lists -/

/-- The fixed texts that programs are made of, with their tokens. -/
def fixedTexts : List (String × List Token) :=
  [ (" ", []), ("    ", []), ("\n", []), (", ", [.sign ',']), (",\n", [.sign ',']),
    (",\n           ", [.sign ',']), (" + ", [.sign '+']), (" = ", [.sign '=']),
    (";\n", [.sign ';']), ("\x7b ", [.sign '\x7b']), (" \x7d", [.sign '\x7d']),
    ("\x7d ", [.sign '\x7d']), ("\x7d\n", [.sign '\x7d']),
    (" = \x7b\n", [.sign '=', .sign '\x7b']), ("\n\x7d;\n", [.sign '\x7d', .sign ';']),
    (");\n", [.sign ')', .sign ';']), ("char*", [.word "char", .sign '*']),
    ("typedef struct \x7b\n", [.word "typedef", .word "struct", .sign '\x7b']),
    ("    float ", [.word "float"]), ("    printf(", [.word "printf", .sign '(']),
    ("    return ", [.word "return"]),
    ("int main() \x7b\n", [.word "int", .word "main", .sign '(', .sign ')', .sign '\x7b']),
    (heading "struct declaration", []), (heading "instances", []), (heading "functions", []) ]

/-- The fixed texts are complete by themselves. -/
theorem lexes_fixed {s : String} {ts : List Token} (h : (s, ts) ∈ fixedTexts) :
    Lexes s.toList ts := by
  have hall : fixedTexts.all (fun x =>
      !x.1.toList.contains '\\' && feed? .gap x.1.toList = some (x.2, .gap)) = true := by
    decide +kernel
  obtain ⟨hslash, hfeed⟩ := Bool.and_eq_true_iff.1 (List.all_eq_true.1 hall (s, ts) h)
  exact ⟨unbroken_of_notMem (by simpa using hslash), of_decide_eq_true hfeed⟩

theorem isWord_of_isName {s : String} (h : isName s = true) : isWord s = true :=
  (Bool.and_eq_true_iff.1 h).1

section
variable {α : Type} {tokens : α → List Token} {xs : List α}

/-- Spelled items with a comma between them. -/
theorem spells_intercalate (text : α → String) {separator : String}
    (hsep : Lexes separator.toList [.sign ',']) (hbreak : startsBreak separator.toList = true)
    (h : ∀ x ∈ xs, Spells (text x).toList (tokens x)) :
    Spells (String.intercalate separator (xs.map text)).toList (commaTokens tokens xs) := by
  cases xs with
  | nil => exact .nil
  | cons x xs =>
      induction xs generalizing x with
      | nil => exact (h x (by simp)).congr (by simp) (by simp [commaTokens])
      | cons y ys ih =>
          have hrest := ih y fun z hz => h z (List.mem_cons_of_mem _ hz)
          have hx := (h x (by simp)).reads hbreak hsep
          exact (Spells.of_lexes hx hrest).congr
            (by simp only [List.map_cons, String.intercalate_cons_cons, String.toList_append])
            (by simp [commaTokens])

theorem lexes_join (text : α → String) (h : ∀ x ∈ xs, Lexes (text x).toList (tokens x)) :
    Lexes (String.join (xs.map text)).toList (xs.flatMap tokens) := by
  rw [String.toList_join, List.flatMap_map]
  exact Reads.flatMap h

theorem lexes_paragraphs (text : α → String) (h : ∀ x ∈ xs, Lexes (text x).toList (tokens x)) :
    Lexes (paragraphs (xs.map text)).toList (xs.flatMap tokens) := by
  cases xs with
  | nil => exact .nil _
  | cons x xs =>
      induction xs generalizing x with
      | nil => exact (h x (by simp)).congr (by simp [paragraphs]) (by simp)
      | cons y ys ih =>
          have hline : Lexes "\n".toList [] := lexes_fixed (by simp [fixedTexts])
          have hrest := ih y fun z hz => h z (List.mem_cons_of_mem _ hz)
          exact (((h x (by simp)).append hline).append hrest).congr
            (by simp only [paragraphs, List.map_cons, String.intercalate_cons_cons,
              String.toList_append])
            (by simp)

end

/-! ### Record types -/

theorem spells_memberType {t : MemberType} (h : t.isLegible = true) :
    Spells t.name.toList t.tokens := by
  cases t with
  | int => exact spells_word (s := "int") (by decide)
  | float => exact spells_word (s := "float") (by decide)
  | text => exact (lexes_fixed (s := "char*") (by simp [fixedTexts, MemberType.tokens])).spells
  | record name => exact spells_word (isWord_of_isName h)

theorem lexes_member {member : MemberType × String} (ht : member.1.isLegible = true)
    (hn : isName member.2 = true) :
    Lexes ("    " ++ member.1.name ++ " " ++ member.2 ++ ";\n").toList (memberTokens member) := by
  have hindent : Lexes "    ".toList [] := lexes_fixed (by simp [fixedTexts])
  have hspace : Lexes " ".toList [] := lexes_fixed (by simp [fixedTexts])
  have hend : Lexes ";\n".toList [.sign ';'] := lexes_fixed (by simp [fixedTexts])
  have htype := (Spells.of_lexes hindent (spells_memberType ht)).reads (by decide) hspace
  have hname := Spells.of_lexes htype (spells_word (isWord_of_isName hn))
  exact (hname.reads (by decide) hend).congr (by simp only [String.toList_append])
    (by simp [memberTokens])

theorem lexes_recordType {t : RecordType} (h : t.isLegible = true) :
    Lexes t.text.toList t.tokens := by
  obtain ⟨hname, hmembers⟩ := Bool.and_eq_true_iff.1 h
  have hopen : Lexes "typedef struct \x7b\n".toList
      [.word "typedef", .word "struct", .sign '\x7b'] := lexes_fixed (by simp [fixedTexts])
  have hclose : Lexes "\x7d ".toList [.sign '\x7d'] := lexes_fixed (by simp [fixedTexts])
  have hend : Lexes ";\n".toList [.sign ';'] := lexes_fixed (by simp [fixedTexts])
  have hlines : Lexes (String.join (t.members.map fun member =>
      "    " ++ member.1.name ++ " " ++ member.2 ++ ";\n")).toList
        (t.members.flatMap memberTokens) := by
    refine lexes_join _ fun member hmem => ?_
    obtain ⟨ht, hn⟩ := Bool.and_eq_true_iff.1 (List.all_eq_true.1 hmembers member hmem)
    exact lexes_member ht hn
  have hbody := (hopen.append hlines).append hclose
  have hnamed := Spells.of_lexes hbody (spells_word (isWord_of_isName hname))
  unfold RecordType.text
  simp only [String.toList_append]
  exact (hnamed.reads (by decide) hend).congr rfl (by simp [RecordType.tokens])

/-! ### Global records -/

theorem lexes_designator (width : Nat) {name : String} (h : isName name = true) :
    Lexes (designator width name).toList [.sign '.', .word name, .sign '='] := by
  have hpad : Lexes (List.replicate (width - name.length) ' ' ++ " = ".toList) [.sign '='] := by
    have hequals : Lexes " = ".toList [.sign '='] := lexes_fixed (by simp [fixedTexts])
    -- the column may have passed already: then there is no padding
    induction width - name.length with
    | zero => exact hequals
    | succ n ih =>
        have hspace : Lexes [' '] [] := lexes_fixed (s := " ") (by simp [fixedTexts])
        exact hspace.append ih
  have hbreak : startsBreak (List.replicate (width - name.length) ' ' ++ " = ".toList) = true := by
    cases width - name.length <;> rfl
  have hname := spells_point_word (isWord_of_isName h)
  exact (hname.reads hbreak hpad).congr
    (by simp only [designator, String.toList_append, String.toList_ofList, List.append_assoc]; rfl)
    (by simp)

theorem lexes_inlineRecord {names : Names} {members : List (String × Scalar)}
    (h : LegibleMembers (Legible names) members) :
    Lexes (Initializer.record members).text.toList (Initializer.record members).tokens := by
  have hopen : Lexes "\x7b ".toList [.sign '\x7b'] := lexes_fixed (by simp [fixedTexts])
  have hcomma : Lexes ", ".toList [.sign ','] := lexes_fixed (by simp [fixedTexts])
  have hclose : Lexes " \x7d".toList [.sign '\x7d'] := lexes_fixed (by simp [fixedTexts])
  have hitems : Spells (String.intercalate ", "
      (members.map fun member => designator 0 member.1 ++ literal member.2)).toList
        (commaTokens (designatedTokens scalarTokens) members) := by
    refine spells_intercalate _ hcomma (by decide) fun member hmem => ?_
    have hitem := Spells.of_lexes (lexes_designator 0 (h member hmem).1) (spells_literal member.2)
    exact hitem.congr (by rw [String.toList_append]) rfl
  unfold Initializer.text
  simp only [String.toList_append]
  exact ((Spells.of_lexes hopen hitems).reads (by decide) hclose).congr rfl
    (by simp [Initializer.tokens])

theorem spells_initializer {names : Names} {v : Initializer} (h : v.IsLegible names) :
    Spells v.text.toList v.tokens := by
  cases v with
  | scalar value => exact spells_literal value
  | record members => exact (lexes_inlineRecord h).spells

theorem lexes_global {names : Names} {g : Global} (h : g.IsLegible names) :
    Lexes g.text.toList g.tokens := by
  obtain ⟨htype, hname, hmembers⟩ := h
  have hspace : Lexes " ".toList [] := lexes_fixed (by simp [fixedTexts])
  have hopen : Lexes " = \x7b\n".toList [.sign '=', .sign '\x7b'] :=
    lexes_fixed (by simp [fixedTexts])
  have hcomma : Lexes ",\n".toList [.sign ','] := lexes_fixed (by simp [fixedTexts])
  have hindent : Lexes "    ".toList [] := lexes_fixed (by simp [fixedTexts])
  have hclose : Lexes "\n\x7d;\n".toList [.sign '\x7d', .sign ';'] :=
    lexes_fixed (by simp [fixedTexts])
  have hitems : Spells (String.intercalate ",\n" (g.members.map fun member =>
      "    " ++ designator g.column member.1 ++ member.2.text)).toList
        (commaTokens (designatedTokens Initializer.tokens) g.members) := by
    refine spells_intercalate _ hcomma (by decide) fun member hmem => ?_
    have hlabel := hindent.append (lexes_designator g.column (hmembers member hmem).1)
    have hitem := Spells.of_lexes hlabel (spells_initializer (hmembers member hmem).2)
    exact hitem.congr (by simp only [String.toList_append]) rfl
  have hhead := (spells_word (isWord_of_isName htype)).reads (by decide) hspace
  have hnamed := (Spells.of_lexes hhead (spells_word (isWord_of_isName hname))).reads
    (by decide) hopen
  unfold Global.text
  simp only [String.toList_append]
  exact ((Spells.of_lexes hnamed hitems).reads (by decide) hclose).congr rfl
    (by simp [Global.tokens])

/-! ### Statements -/

theorem spells_expr {e : Expr} (h : e.isLegible = true) : Spells e.text.toList e.tokens := by
  induction e with
  | ident name => exact spells_word (isWord_of_isName h)
  | member global field =>
      obtain ⟨hglobal, hfield⟩ := Bool.and_eq_true_iff.1 h
      have hspells := spells_word_point_word (isWord_of_isName hglobal) (isWord_of_isName hfield)
      exact hspells.congr (by simp [Expr.text]) rfl
  | sum left right ihl ihr =>
      obtain ⟨hleft, hright⟩ := Expr.isLegible_sum h
      have hplus : Lexes " + ".toList [.sign '+'] := lexes_fixed (by simp [fixedTexts])
      have hterm := ihr (Expr.isLegible_of_isTerm hright)
      have hspells := Spells.of_lexes ((ihl hleft).reads (by decide) hplus) hterm
      exact hspells.congr (by simp only [Expr.text, String.toList_append]) (by simp [Expr.tokens])

theorem flatMap_argumentTokens (e : Expr) (es : List Expr) :
    (e :: es).flatMap argumentTokens = .sign ',' :: commaTokens Expr.tokens (e :: es) := by
  rw [commaTokens, List.flatMap_cons, argumentTokens, List.cons_append]
  rfl

/-- Arguments after a text that is complete. -/
theorem spells_arguments {xs : List Char} {ts : List Token} {es : List Expr} (hx : Lexes xs ts)
    (h : es.all Expr.isLegible = true) :
    Spells (xs ++ (argumentsText es).toList) (ts ++ es.flatMap argumentTokens) := by
  have hitems : ∀ e ∈ es, Spells e.text.toList e.tokens :=
    fun e he => spells_expr (List.all_eq_true.1 h e he)
  have hcomma : Lexes ", ".toList [.sign ','] := lexes_fixed (by simp [fixedTexts])
  match es with
  | [] => exact hx.spells.congr (by simp [argumentsText]) (by simp)
  | [e] =>
      have hspells := Spells.of_lexes (hx.append hcomma) (hitems e (by simp))
      exact hspells.congr (by simp [argumentsText]) (by simp [argumentTokens])
  | e :: e' :: es =>
      have hline : Lexes ",\n           ".toList [.sign ','] := lexes_fixed (by simp [fixedTexts])
      have hlist := spells_intercalate Expr.text hcomma (by decide) hitems
      have hspells := Spells.of_lexes (hx.append hline) hlist
      exact hspells.congr (by simp only [argumentsText, String.toList_append, List.append_assoc])
        (by rw [flatMap_argumentTokens, List.append_assoc, List.singleton_append])

theorem lexes_statement {st : Statement} (h : st.isLegible = true) :
    Lexes st.text.toList st.tokens := by
  have hend : Lexes ";\n".toList [.sign ';'] := lexes_fixed (by simp [fixedTexts])
  cases st with
  | declareFloat name value =>
      obtain ⟨hname, hvalue⟩ := Bool.and_eq_true_iff.1 h
      have hopen : Lexes "    float ".toList [.word "float"] := lexes_fixed (by simp [fixedTexts])
      have hequals : Lexes " = ".toList [.sign '='] := lexes_fixed (by simp [fixedTexts])
      have hleft := Spells.of_lexes hopen (spells_word (isWord_of_isName hname))
      have hright := Spells.of_lexes (hleft.reads (by decide) hequals) (spells_expr hvalue)
      unfold Statement.text
      simp only [String.toList_append]
      exact (hright.reads (by decide) hend).congr rfl (by simp [Statement.tokens])
  | print format arguments =>
      obtain ⟨-, hargs⟩ := Bool.and_eq_true_iff.1 h
      have hopen : Lexes "    printf(".toList [.word "printf", .sign '('] :=
        lexes_fixed (by simp [fixedTexts])
      have hclose : Lexes ");\n".toList [.sign ')', .sign ';'] :=
        lexes_fixed (by simp [fixedTexts])
      have hformat := hopen.append (lexes_textLiteral (formatText format))
      have hcall := spells_arguments hformat hargs
      unfold Statement.text
      simp only [String.toList_append]
      exact (hcall.reads (by decide) hclose).congr rfl (by simp [Statement.tokens])
  | finish status =>
      have hopen : Lexes "    return ".toList [.word "return"] := lexes_fixed (by simp [fixedTexts])
      have hvalue := Spells.of_lexes hopen (spells_intText status)
      unfold Statement.text
      simp only [String.toList_append]
      exact (hvalue.reads (by decide) hend).congr rfl (by simp [Statement.tokens])

/-! ### Source files -/

theorem lexes_mainText {p : Program} (h : p.main.flatten.all Statement.isLegible = true) :
    Lexes p.mainText.toList
      ([.word "int", .word "main", .sign '(', .sign ')', .sign '\x7b'] ++
        p.main.flatten.flatMap Statement.tokens ++ [.sign '\x7d']) := by
  have hopen : Lexes "int main() \x7b\n".toList
      [.word "int", .word "main", .sign '(', .sign ')', .sign '\x7b'] :=
    lexes_fixed (by simp [fixedTexts])
  have hclose : Lexes "\x7d\n".toList [.sign '\x7d'] := lexes_fixed (by simp [fixedTexts])
  have hbody : Lexes
      (paragraphs (p.main.map fun sts => String.join (sts.map Statement.text))).toList
        (p.main.flatMap fun sts => sts.flatMap Statement.tokens) := by
    refine lexes_paragraphs _ fun sts hsts => lexes_join Statement.text fun st hst => ?_
    exact lexes_statement (List.all_eq_true.1 h st (List.mem_flatten_of_mem hsts hst))
  unfold mainText
  simp only [String.toList_append]
  exact ((hopen.append hbody).append hclose).congr rfl
    (by rw [List.flatten_eq_flatMap, List.flatMap_assoc]; rfl)

/-- Everything after the header lexes as the tokens of the program. -/
theorem exists_text_eq {names : Names} {p : Program} (h : p.IsLegible names) :
    ∃ body, p.text.toList = header.toList ++ body ∧ Lexes body p.tokens := by
  have hline : Lexes "\n".toList [] := lexes_fixed (by simp [fixedTexts])
  have htypes : Lexes (heading "struct declaration").toList [] :=
    lexes_fixed (by simp [fixedTexts])
  have hglobals : Lexes (heading "instances").toList [] := lexes_fixed (by simp [fixedTexts])
  have hmain : Lexes (heading "functions").toList [] := lexes_fixed (by simp [fixedTexts])
  have h₁ := htypes.append (lexes_paragraphs RecordType.text fun t ht =>
    lexes_recordType (List.all_eq_true.1 h.types t ht))
  have h₂ := hglobals.append (lexes_paragraphs Global.text fun g hg =>
    lexes_global (h.globals g hg))
  have h₃ := hmain.append (lexes_mainText h.main)
  refine ⟨_, ?_, ((hline.append h₁).append ((hline.append h₂).append (hline.append h₃))).congr rfl
    (by simp [tokens])⟩
  unfold text paragraphs
  simp only [String.intercalate_cons_cons, String.intercalate_singleton, String.toList_append,
    List.append_assoc, header]

/-- **Reading undoes writing:** the text of a legible program is read as the program, with its
paragraphs run together. -/
theorem ofSource?_text {names : Names} {p : Program} (h : p.IsLegible names) :
    ofSource? names p.text = some { p with main := [p.main.flatten] } := by
  obtain ⟨body, htext, hbody⟩ := exists_text_eq h
  have hheader : Unbroken header.toList := unbroken_of_notMem (by simp [header])
  have hsplice : splice p.text.toList = header.toList ++ body := by
    have hnil := hbody.unbroken []
    rw [htext, hheader, ← List.append_nil body, hnil]
    rfl
  have htokens : tokens? body = some p.tokens := by
    rw [tokens?, hbody.feed?_eq]
    simp [Mode.close?, Mode.pending]
  have hdrop : (header.toList ++ body).drop header.length = body := by
    rw [← String.length_toList, List.drop_left]
  simp [ofSource?, hsplice, guard, hdrop, htokens, ofTokens?_tokens h]

end Paddock.Program
