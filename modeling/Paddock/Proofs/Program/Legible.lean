import Paddock.Proofs.Program.Reader

/-!
# Program — legible programs

Every node of a program has its `tokens`, the same ones however the node is laid out.  A program is
*legible* when its names are names, its sums lean to the left, its formats are free of stray percent
signs and NULs, and the reader has constants or names for its numbers.  The tokens of a legible
program are read as the program (`ofTokens?_tokens`), with its paragraphs run together.

The proof has one lemma for each reader: what it makes of the tokens of a node with anything after
them.  Where an item could go on, the lemma says what must not come next.
-/

namespace Paddock.Program

/-! ### Tokens of the syntax -/

/-- The tokens of a list with commas between its items. -/
def commaTokens {α : Type} (tokens : α → List Token) : List α → List Token
  | [] => []
  | x :: xs => tokens x ++ xs.flatMap fun y => .sign ',' :: tokens y

/-- The tokens of a type. -/
def MemberType.tokens : MemberType → List Token
  | int => [.word "int"]
  | float => [.word "float"]
  | text => [.word "char", .sign '*']
  | record name => [.word name]

/-- The tokens of the declaration of a member. -/
def memberTokens (member : MemberType × String) : List Token :=
  member.1.tokens ++ [.word member.2, .sign ';']

/-- The tokens of the declaration of a record type. -/
def RecordType.tokens (t : RecordType) : List Token :=
  [.word "typedef", .word "struct", .sign '\x7b'] ++ t.members.flatMap memberTokens ++
    [.sign '\x7d', .word t.name, .sign ';']

/-- The tokens of a member with its designator. -/
def designatedTokens {α : Type} (tokens : α → List Token) (member : String × α) : List Token :=
  [.sign '.', .word member.1, .sign '='] ++ tokens member.2

/-- The tokens of an initialiser. -/
def Initializer.tokens : Initializer → List Token
  | scalar value => scalarTokens value
  | record members =>
    .sign '\x7b' :: commaTokens (designatedTokens scalarTokens) members ++ [.sign '\x7d']

/-- The tokens of the definition of a global record. -/
def Global.tokens (g : Global) : List Token :=
  [.word g.type, .word g.name, .sign '=', .sign '\x7b'] ++
    commaTokens (designatedTokens Initializer.tokens) g.members ++ [.sign '\x7d', .sign ';']

/-- The tokens of an expression. -/
def Expr.tokens : Expr → List Token
  | ident name => [.word name]
  | member global field => [.word global, .sign '.', .word field]
  | sum left right => left.tokens ++ .sign '+' :: right.tokens

/-- The tokens of an argument after a format. -/
def argumentTokens (e : Expr) : List Token := .sign ',' :: e.tokens

/-- The text of a format. -/
def formatText (format : List Directive) : String := String.join (format.map Directive.spelling)

/-- The tokens of a statement. -/
def Statement.tokens : Statement → List Token
  | declareFloat name value =>
    [.word "float", .word name, .sign '='] ++ value.tokens ++ [.sign ';']
  | print format arguments =>
    [.word "printf", .sign '(', .text (formatText format)] ++ arguments.flatMap argumentTokens ++
      [.sign ')', .sign ';']
  | finish status => .word "return" :: intTokens status ++ [.sign ';']

/-- The tokens of a program, without its header. -/
def tokens (p : Program) : List Token :=
  p.types.flatMap RecordType.tokens ++ p.globals.flatMap Global.tokens ++
    [.word "int", .word "main", .sign '(', .sign ')', .sign '\x7b'] ++
    p.main.flatten.flatMap Statement.tokens ++ [.sign '\x7d']

/-! ### Legibility -/

/-- Whether a type can be read: a record type must have a name. -/
def MemberType.isLegible : MemberType → Bool
  | record name => isName name
  | int | float | text => true

/-- Whether the names of a record type are names. -/
def RecordType.isLegible (t : RecordType) : Bool :=
  isName t.name && t.members.all fun (type, name) => type.isLegible && isName name

/-- Whether members have names and values that can be read. -/
def LegibleMembers {α : Type} (legible : α → Prop) (members : List (String × α)) : Prop :=
  ∀ member ∈ members, isName member.1 = true ∧ legible member.2

/-- Whether an initialiser can be read. -/
def Initializer.IsLegible (names : Names) : Initializer → Prop
  | scalar value => Legible names value
  | record members => LegibleMembers (Legible names) members

/-- Whether a global record can be read. -/
def Global.IsLegible (names : Names) (g : Global) : Prop :=
  isName g.type = true ∧ isName g.name = true ∧
    LegibleMembers (Initializer.IsLegible names) g.members

/-- Whether an expression is read as it is: only the left side of a sum may be a sum. -/
def Expr.isLegible : Expr → Bool
  | ident name => isName name
  | member global field => isName global && isName field
  | sum left (.ident name) => left.isLegible && isName name
  | sum left (.member global field) => left.isLegible && isName global && isName field
  | sum _ (.sum _ _) => false

/-- Whether a format is read as it is: its verbatim pieces are neither empty nor adjacent, and have
no percent sign and no NUL. -/
def isLegibleFormat : List Directive → Bool
  | [] => true
  | .verbatim _ :: .verbatim _ :: _ => false
  | .verbatim s :: ds =>
    !s.isEmpty && s.toList.all (fun c => c != '%' && c != '\x00') && isLegibleFormat ds
  | .int :: ds | .fixed :: ds | .text :: ds => isLegibleFormat ds

/-- Whether a statement is read as it is. -/
def Statement.isLegible : Statement → Bool
  | declareFloat name value => isName name && value.isLegible
  | print format arguments => isLegibleFormat format && arguments.all Expr.isLegible
  | finish _ => true

/-- Whether a program is read as it is, by a reader that knows some names. -/
structure IsLegible (names : Names) (p : Program) : Prop where
  types : p.types.all RecordType.isLegible = true
  globals : ∀ g ∈ p.globals, g.IsLegible names
  main : p.main.flatten.all Statement.isLegible = true

/-! ### Lists -/

theorem name?_word {s : String} (h : isName s = true) (ts : List Token) :
    name? (.word s :: ts) = some (s, ts) := if_pos h

section
variable {α : Type} {item? : List Token → Option (α × List Token)} {tokens : α → List Token}
  {xs : List α} {rest : List Token}

/-- Items are read one after another as long as each may be followed by the next. -/
theorem many_flatMap (follow : List Token → Prop) (hstop : item? rest = none) (hrest : follow rest)
    (hfollow : ∀ x ∈ xs, ∀ ts, follow (tokens x ++ ts)) (hne : ∀ x ∈ xs, tokens x ≠ [])
    (hitem : ∀ x ∈ xs, ∀ ts, follow ts → item? (tokens x ++ ts) = some (x, ts)) :
    many item? (xs.flatMap tokens ++ rest) = (xs, rest) := by
  induction xs with
  | nil => rw [List.flatMap_nil, List.nil_append, many, hstop]
  | cons x xs ih =>
      -- behind `x` stands the next item, or what follows the last one
      have hnext : follow (xs.flatMap tokens ++ rest) := by
        cases xs with
        | nil => exact hrest
        | cons y ys =>
            rw [List.flatMap_cons, List.append_assoc]
            exact hfollow y (by simp) _
      have hpos : 0 < (tokens x).length := List.length_pos_of_ne_nil (hne x (by simp))
      rw [List.flatMap_cons, List.append_assoc, many, hitem x (by simp) _ hnext]
      simp only
      rw [if_pos (by simp only [List.length_append]; omega),
        ih (fun y hy => hfollow y (by simp [hy])) (fun y hy => hne y (by simp [hy]))
          (fun y hy => hitem y (by simp [hy]))]

/-- Items that nothing can continue. -/
theorem many_flatMap_of_all (hstop : item? rest = none) (hne : ∀ x ∈ xs, tokens x ≠ [])
    (hitem : ∀ x ∈ xs, ∀ ts, item? (tokens x ++ ts) = some (x, ts)) :
    many item? (xs.flatMap tokens ++ rest) = (xs, rest) :=
  many_flatMap (fun _ => True) hstop trivial (fun _ _ _ => trivial) hne
    fun x hx ts _ => hitem x hx ts

theorem braced?_commaTokens (hstop : item? (.sign '\x7d' :: rest) = none)
    (hitem : ∀ x ∈ xs, ∀ ts, item? (tokens x ++ ts) = some (x, ts)) :
    braced? item? (.sign '\x7b' :: (commaTokens tokens xs ++ .sign '\x7d' :: rest)) =
      some (xs, rest) := by
  cases xs with
  | nil => simp [braced?, commaTokens, skip?, hstop]
  | cons x xs =>
      have hmany : many (after? (.sign ',') item?)
          (xs.flatMap (fun y => .sign ',' :: tokens y) ++ .sign '\x7d' :: rest) =
            (xs, .sign '\x7d' :: rest) := by
        refine many_flatMap_of_all (by simp [after?, skip?]) (by simp) fun y hy ts => ?_
        simp [after?, skip?, hitem y (by simp [hy])]
      simp [braced?, commaTokens, skip?, hitem x (by simp), hmany]

theorem designated?_tokens {legible : α → Prop} {member : String × α}
    (hname : isName member.1 = true) (hvalue : legible member.2)
    (hitem : ∀ x, legible x → ∀ ts, item? (tokens x ++ ts) = some (x, ts)) (ts : List Token) :
    designated? item? (designatedTokens tokens member ++ ts) = some (member, ts) := by
  simp [designated?, designatedTokens, skip?, name?_word hname, hitem _ hvalue]

theorem designated?_brace (item? : List Token → Option (α × List Token)) (ts : List Token) :
    designated? item? (.sign '\x7d' :: ts) = none := by
  simp [designated?, skip?]

end

/-! ### Record types -/

theorem memberType?_tokens {t : MemberType} (h : t.isLegible = true) (ts : List Token) :
    memberType? (t.tokens ++ ts) = some (t, ts) := by
  cases t with
  | int => rfl
  | float => rfl
  | text => rfl
  | record name =>
      have hname : isName name = true := h
      have hread := name?_word hname ts
      rw [MemberType.tokens, List.singleton_append, memberType?.eq_4, hread]
      · rfl
      -- no keyword is a name
      all_goals
        rintro _ ⟨⟩
        exact absurd hname (by decide)

theorem member?_tokens {member : MemberType × String} (ht : member.1.isLegible = true)
    (hn : isName member.2 = true) (ts : List Token) :
    member? (memberTokens member ++ ts) = some (member, ts) := by
  rw [memberTokens, List.append_assoc]
  simp [member?, memberType?_tokens ht, name?_word hn, skip?]

theorem member?_brace (ts : List Token) : member? (.sign '\x7d' :: ts) = none := rfl

theorem recordType?_tokens {t : RecordType} (h : t.isLegible = true) (ts : List Token) :
    recordType? (t.tokens ++ ts) = some (t, ts) := by
  obtain ⟨hname, hmembers⟩ := Bool.and_eq_true_iff.1 h
  have hmany : many member?
      (t.members.flatMap memberTokens ++ .sign '\x7d' :: .word t.name :: .sign ';' :: ts) =
        (t.members, .sign '\x7d' :: .word t.name :: .sign ';' :: ts) := by
    refine many_flatMap_of_all (member?_brace _) (by simp [memberTokens]) fun member hmem us => ?_
    obtain ⟨ht, hn⟩ := Bool.and_eq_true_iff.1 (List.all_eq_true.1 hmembers member hmem)
    exact member?_tokens ht hn us
  simp [recordType?, RecordType.tokens, skip?, hmany, name?_word hname]

theorem recordType?_word {s : String} (h : s ≠ "typedef") (ts : List Token) :
    recordType? (.word s :: ts) = none := by
  simp [recordType?, skip?, h.symm]

/-! ### Global records -/

variable {names : Names}

theorem initializer?_scalar (names : Names) (v : Scalar) (ts : List Token) :
    initializer? names (scalarTokens v ++ ts) =
      (scalar? names (scalarTokens v ++ ts)).map fun (value, ts) => (.scalar value, ts) := by
  have hminus : ∀ (negative : Bool) (t : Token), t ≠ .sign '\x7b' →
      initializer? names (minus negative ++ [t] ++ ts) =
        (scalar? names (minus negative ++ [t] ++ ts)).map
          fun (value, ts) => (.scalar value, ts) := by
    intro negative t ht
    cases negative with
    | true => rfl
    | false =>
        refine initializer?.eq_2 _ _ ?_
        rintro us ⟨⟩
        exact ht rfl
  cases v with
  | text s => rfl
  | int n => exact hminus _ _ (by simp)
  | float x =>
      cases x with
      | nan => rfl
      | inf negative => exact hminus _ _ (by simp)
      | finite negative rank => exact hminus _ _ (by simp)

theorem initializer?_tokens {v : Initializer} (h : v.IsLegible names) (ts : List Token) :
    initializer? names (v.tokens ++ ts) = some (v, ts) := by
  cases v with
  | scalar value =>
      rw [Initializer.tokens, initializer?_scalar, scalar?_scalarTokens h]
      rfl
  | record members =>
      have hbraced : braced? (designated? (scalar? names)) (.sign '\x7b' ::
          (commaTokens (designatedTokens scalarTokens) members ++ .sign '\x7d' :: ts)) =
            some (members, ts) :=
        braced?_commaTokens (designated?_brace _ _) fun member hmem us =>
          designated?_tokens (h member hmem).1 (h member hmem).2
            (fun _ hv vs => scalar?_scalarTokens hv vs) us
      simp [Initializer.tokens, initializer?, hbraced]

theorem global?_tokens {g : Global} (h : g.IsLegible names) (ts : List Token) :
    global? names (g.tokens ++ ts) = some (g, ts) := by
  obtain ⟨htype, hname, hmembers⟩ := h
  have hbraced : braced? (designated? (initializer? names)) (.sign '\x7b' ::
      (commaTokens (designatedTokens Initializer.tokens) g.members ++
        .sign '\x7d' :: .sign ';' :: ts)) = some (g.members, .sign ';' :: ts) :=
    braced?_commaTokens (designated?_brace _ _) fun member hmem us =>
      designated?_tokens (hmembers member hmem).1 (hmembers member hmem).2
        (fun _ hv vs => initializer?_tokens hv vs) us
  simp [global?, Global.tokens, name?_word htype, name?_word hname, skip?, hbraced]

/-! ### Expressions -/

/-- What may follow an expression: neither a member nor another term. -/
def EndsExpr (ts : List Token) : Prop :=
  ts.head? ≠ some (.sign '.') ∧ ts.head? ≠ some (.sign '+')

/-- Whether an expression is a single term that can be read. -/
def Expr.isTerm : Expr → Bool
  | ident name => isName name
  | member global field => isName global && isName field
  | sum _ _ => false

theorem term?_tokens {e : Expr} (h : e.isTerm = true) {ts : List Token}
    (hts : ts.head? ≠ some (.sign '.')) : term? (e.tokens ++ ts) = some (e, ts) := by
  cases e with
  | ident name =>
      have hname : isName name = true := h
      rw [Expr.tokens, List.singleton_append, term?, name?_word hname]
      simp only [Option.bind_eq_bind, Option.bind_some]
      split
      · exact absurd rfl hts
      · rfl
  | member global field =>
      obtain ⟨hglobal, hfield⟩ := Bool.and_eq_true_iff.1 h
      simp [Expr.tokens, term?, name?_word hglobal, name?_word hfield]
  | sum left right => cases h

theorem Expr.isLegible_of_isTerm {e : Expr} (h : e.isTerm = true) : e.isLegible = true := by
  cases e with
  | ident name => exact h
  | member global field => exact h
  | sum left right => cases h

/-- The right side of a legible sum is a term. -/
theorem Expr.isLegible_sum {left right : Expr} (h : (sum left right).isLegible = true) :
    left.isLegible = true ∧ right.isTerm = true := by
  cases right with
  | ident name => exact Bool.and_eq_true_iff.1 h
  | member global field =>
      obtain ⟨hleft, hfield⟩ := Bool.and_eq_true_iff.1 h
      obtain ⟨hleft, hglobal⟩ := Bool.and_eq_true_iff.1 hleft
      exact ⟨hleft, Bool.and_eq_true_iff.2 ⟨hglobal, hfield⟩⟩
  | sum l r => cases h

/-- A legible expression is a row of terms, added from the left. -/
theorem Expr.exists_terms {e : Expr} (h : e.isLegible = true) :
    ∃ (first : Expr) (rest : List Expr), e = rest.foldl .sum first ∧ first.isTerm = true ∧
      (∀ t ∈ rest, t.isTerm = true) ∧
      e.tokens = first.tokens ++ rest.flatMap fun t => .sign '+' :: t.tokens := by
  induction e with
  | ident name => exact ⟨.ident name, [], rfl, h, by simp, by simp⟩
  | member global field => exact ⟨.member global field, [], rfl, h, by simp, by simp⟩
  | sum left right ihl _ =>
      obtain ⟨hleft, hright⟩ := isLegible_sum h
      obtain ⟨first, rest, rfl, hfirst, hrest, htokens⟩ := ihl hleft
      refine ⟨first, rest ++ [right], by simp, hfirst, ?_, by simp [tokens, htokens]⟩
      intro t ht
      rcases List.mem_append.1 ht with ht | ht
      · exact hrest t ht
      · rw [List.mem_singleton.1 ht]
        exact hright

theorem expr?_tokens {e : Expr} (h : e.isLegible = true) (ts : List Token) (hts : EndsExpr ts) :
    expr? (e.tokens ++ ts) = some (e, ts) := by
  obtain ⟨first, rest, rfl, hfirst, hrest, htokens⟩ := Expr.exists_terms h
  have hstop : after? (.sign '+') term? ts = none := by
    cases ts with
    | nil => rfl
    | cons t ts =>
        have ht : Token.sign '+' ≠ t := by
          rintro rfl
          exact hts.2 rfl
        simp [after?, skip?, ht]
  have hmany : many (after? (.sign '+') term?)
      (rest.flatMap (fun t => .sign '+' :: t.tokens) ++ ts) = (rest, ts) := by
    refine many_flatMap (fun us => us.head? ≠ some (.sign '.')) hstop hts.1 (by simp) (by simp)
      fun t ht us hus => ?_
    simp [after?, skip?, term?_tokens (hrest t ht) hus]
  have hnext : (rest.flatMap (fun t => .sign '+' :: t.tokens) ++ ts).head? ≠ some (.sign '.') := by
    cases rest with
    | nil => exact hts.1
    | cons t rest => simp
  rw [htokens, List.append_assoc, expr?, term?_tokens hfirst hnext]
  simp [hmany]

/-! ### Formats -/

theorem directives?_cons {c : Char} (hc : c ≠ '%') (hnul : c ≠ '\x00') (cs : List Char) :
    directives? (c :: cs) = (directives? cs).map (verbatimCons c) := by
  rw [directives?.eq_def]
  split <;> simp_all

/-- A run of plain characters is one verbatim piece. -/
theorem directives?_verbatim (cs : List Char) {rest : List Char} {ds : List Directive}
    (hne : cs ≠ []) (hcs : ∀ c ∈ cs, c ≠ '%' ∧ c ≠ '\x00') (hrest : directives? rest = some ds)
    (hds : ∀ s ds', ds ≠ .verbatim s :: ds') :
    directives? (cs ++ rest) = some (.verbatim (String.ofList cs) :: ds) := by
  induction cs with
  | nil => exact absurd rfl hne
  | cons c cs ih =>
      obtain ⟨hc, hnul⟩ := hcs c List.mem_cons_self
      rw [List.cons_append, directives?_cons hc hnul]
      cases cs with
      | nil =>
          -- the last character opens the piece, which would join a verbatim one behind it
          rw [List.nil_append, hrest, Option.map_some, verbatimCons]
          exact hds
      | cons c' cs =>
          rw [ih (by simp) fun x hx => hcs x (List.mem_cons_of_mem _ hx), Option.map_some,
            verbatimCons, String.toList_ofList]

theorem directives?_formatText {ds : List Directive} (h : isLegibleFormat ds = true) :
    directives? (formatText ds).toList = some ds := by
  rw [formatText, String.toList_join]
  induction ds with
  | nil => rfl
  | cons d ds ih =>
      cases d with
      | int => simpa [Directive.spelling, directives?] using ih h
      | fixed => simpa [Directive.spelling, directives?] using ih h
      | text => simpa [Directive.spelling, directives?] using ih h
      | verbatim s =>
          have hnext : ∀ s' ds', ds ≠ .verbatim s' :: ds' := by
            rintro s' ds' rfl
            cases h
          rw [isLegibleFormat.eq_3 _ _ hnext, Bool.and_eq_true, Bool.and_eq_true,
            List.all_eq_true] at h
          obtain ⟨⟨hs, hplain⟩, hds⟩ := h
          have hverbatim := directives?_verbatim s.toList (by simpa using hs)
            (fun c hc => by simpa using hplain c hc) (ih hds) hnext
          rwa [String.ofList_toList] at hverbatim

/-! ### Statements and programs -/

theorem statement?_tokens {st : Statement} (h : st.isLegible = true) (ts : List Token) :
    statement? (st.tokens ++ ts) = some (st, ts) := by
  cases st with
  | declareFloat name value =>
      obtain ⟨hname, hvalue⟩ := Bool.and_eq_true_iff.1 h
      have hread := expr?_tokens hvalue (.sign ';' :: ts) ⟨by simp, by simp⟩
      simp [Statement.tokens, statement?, name?_word hname, skip?, hread]
  | print format arguments =>
      obtain ⟨hformat, hargs⟩ := Bool.and_eq_true_iff.1 h
      have hmany : many (after? (.sign ',') expr?)
          (arguments.flatMap argumentTokens ++ .sign ')' :: .sign ';' :: ts) =
            (arguments, .sign ')' :: .sign ';' :: ts) := by
        refine many_flatMap EndsExpr (by simp [after?, skip?]) ⟨by simp, by simp⟩
          (fun _ _ _ => ⟨by simp [argumentTokens], by simp [argumentTokens]⟩)
          (by simp [argumentTokens]) fun e he us hus => ?_
        simp [argumentTokens, after?, skip?, expr?_tokens (List.all_eq_true.1 hargs e he) us hus]
      simp [Statement.tokens, statement?, directives?_formatText hformat, hmany, skip?]
  | finish status =>
      have hread := scalar?_scalarTokens (show Legible .none (.int status) from trivial)
        (.sign ';' :: ts)
      rw [scalarTokens] at hread
      simp [Statement.tokens, statement?, hread, skip?]

/-- **The tokens of a legible program are read as the program.** -/
theorem ofTokens?_tokens {p : Program} (h : p.IsLegible names) :
    ofTokens? names p.tokens = some { p with main := [p.main.flatten] } := by
  have hstatements : many statement?
      (p.main.flatten.flatMap Statement.tokens ++ [.sign '\x7d']) =
        (p.main.flatten, [.sign '\x7d']) := by
    refine many_flatMap_of_all rfl (fun st _ => ?_) fun st hst ts =>
      statement?_tokens (List.all_eq_true.1 h.main st hst) ts
    cases st <;> simp [Statement.tokens]
  obtain ⟨rest, hrest⟩ : ∃ rest, rest =
      Token.sign '(' :: .sign ')' :: .sign '\x7b' ::
        (p.main.flatten.flatMap Statement.tokens ++ [.sign '\x7d']) := ⟨_, rfl⟩
  have hglobals : many (global? names)
      (p.globals.flatMap Global.tokens ++ .word "int" :: .word "main" :: rest) =
        (p.globals, .word "int" :: .word "main" :: rest) := by
    refine many_flatMap_of_all ?_ (by simp [Global.tokens]) fun g hg ts =>
      global?_tokens (h.globals g hg) ts
    -- the main function ends the globals, since `int` is no name
    rw [global?, name?, if_neg (by decide)]
    rfl
  have htypes : many recordType? (p.types.flatMap RecordType.tokens ++
      (p.globals.flatMap Global.tokens ++ .word "int" :: .word "main" :: rest)) =
        (p.types, p.globals.flatMap Global.tokens ++ .word "int" :: .word "main" :: rest) := by
    refine many_flatMap_of_all ?_ (by simp [RecordType.tokens]) fun t ht ts =>
      recordType?_tokens (List.all_eq_true.1 h.types t ht) ts
    -- the definition of a global begins with a name, and the main function with `int`
    cases hg : p.globals with
    | nil => exact recordType?_word (by decide) _
    | cons g gs =>
        refine recordType?_word ?_ _
        intro htype
        exact absurd (htype ▸ (h.globals g (by simp [hg])).1) (by decide)
  have htokens : p.tokens = p.types.flatMap RecordType.tokens ++
      (p.globals.flatMap Global.tokens ++ .word "int" :: .word "main" :: rest) := by
    simp [tokens, hrest]
  simp only [ofTokens?, htokens, htypes, hglobals]
  simp [hrest, skip?, hstatements]

end Paddock.Program
