import Paddock.Proofs.Decimal.Reader
import Paddock.Proofs.Program.Token

/-!
# Program — constants

A number token is a whole constant or one of type `float`: digits with a point or an exponent, and
the suffix `f`.  A `float` constant is its exact value rounded to the nearest number.  There are no
negative constants; a minus sign in front negates.  What is not finite has no constant, and a name
stands in its place: which names a reader knows is a parameter, and a reader of plain C knows none.

The literal of a scalar spells `scalarTokens` (`spells_literal`), and these are read as the scalar
again (`scalar?_scalarTokens`).  For a finite number this is the round trip of its shortest decimal.
-/

namespace Paddock

/-- The number with the other sign. -/
def Binary.neg {f : Format} : Binary f → Binary f
  | nan => nan
  | inf negative => inf (!negative)
  | finite negative rank => finite (!negative) rank

namespace Program

/-! ### Reading constants -/

/-- The names that stand for numbers. -/
abbrev Names := String → Option Single

/-- The names of plain C: there are none. -/
def Names.none : Names := fun _ => .none

/-- The names that literals give to what is not finite. -/
def Names.nonFinite : Names
  | "NaNf" => some .nan
  | "inff" => some (.inf false)
  | _ => .none

/-- A constant without its sign. -/
inductive Constant where
  | int (n : Nat)
  | float (x : Single)
deriving DecidableEq

/-- A decimal whole constant; a zero in front of further digits would make it octal. -/
def intConstant? (cs : List Char) : Option Nat :=
  if isDigits cs ∧ (cs.head? ≠ some '0' ∨ cs = ['0']) then some (digitsValue cs) else none

/-- A constant of type `float`, rounded to the nearest number. -/
def floatConstant? (cs : List Char) : Option Single :=
  if cs.getLast? = some 'f' ∨ cs.getLast? = some 'F' then
    (Decimal.ofText? cs.dropLast).map fun d => Binary.round false d.toRat
  else none

/-- The constant of a token. -/
def constant? (names : Names) : Token → Option Constant
  | .number cs =>
    match intConstant? cs with
    | some n => some (.int n)
    | none => (floatConstant? cs).map .float
  | .word name => (names name).map .float
  | _ => none

/-- The value of a constant after an even or an odd number of minus signs; a whole one must fit. -/
def Constant.scalar? (negative : Bool) : Constant → Option Scalar
  | int n =>
    let value : Int := if negative then -(n : Int) else n
    if Int32.minValue.toInt ≤ value ∧ value ≤ Int32.maxValue.toInt then
      some (.int (Int32.ofInt value))
    else none
  | float x => some (.float (if negative then x.neg else x))

/-- The scalar in front of some tokens: a text, or a constant after at most one minus sign. -/
def scalar? (names : Names) : List Token → Option (Scalar × List Token)
  | .text s :: ts => some (.text s, ts)
  | .sign '-' :: t :: ts => ((constant? names t).bind (·.scalar? true)).map (·, ts)
  | t :: ts => ((constant? names t).bind (·.scalar? false)).map (·, ts)
  | [] => none

/-! ### The tokens of a literal -/

/-- The sign in front of a constant. -/
def minus (negative : Bool) : List Token := if negative then [.sign '-'] else []

/-- The characters of a `float` constant. -/
def floatChars (rank : Nat) : List Char := (Decimal.shortest .single rank).text ++ ['f']

/-- The tokens of a `float` literal. -/
def floatTokens : Single → List Token
  | .nan => [.word "NaNf"]
  | .inf negative => minus negative ++ [.word "inff"]
  | .finite negative rank => minus negative ++ [.number (floatChars rank)]

/-- The tokens of a whole literal. -/
def intTokens (n : Int32) : List Token :=
  minus (n.toInt < 0) ++ [.number (digitsOf n.toInt.natAbs)]

/-- The tokens of a scalar. -/
def scalarTokens : Scalar → List Token
  | .int n => intTokens n
  | .float x => floatTokens x
  | .text s => [.text s]

/-! ### Literals spell their tokens -/

theorem isNameChar_of_isDigit {c : Char} (h : c.isDigit = true) : isNameChar c = true := by
  simp [isNameChar, Char.isAlphanum, h]

/-- Whether a character continues every number. -/
def isPlain (c : Char) : Bool := isNameChar c || c == '.'

theorem isPlain_of_isDigit {c : Char} (h : c.isDigit = true) : isPlain c = true := by
  rw [isPlain, isNameChar_of_isDigit h, Bool.true_or]

theorem unbroken_of_isPlain {cs : List Char} (h : ∀ c ∈ cs, isPlain c = true) : Unbroken cs :=
  unbroken_of_notMem fun hmem => absurd (h _ hmem) (by decide)

/-- `cs` is one number. -/
def IsNumber (cs : List Char) : Prop := Reads .gap cs [] (.number cs.reverse)

namespace IsNumber

variable {xs ys : List Char}

theorem digit {c : Char} (h : c.isDigit = true) : IsNumber [c] := by
  refine ⟨unbroken_of_isPlain (by simpa using isPlain_of_isDigit h), ?_⟩
  refine feed?_cons_iff.2 ⟨[], .number [c], [], ?_, rfl, rfl⟩
  rw [step?_gap, begin?_of_isDigit h]

/-- Digits, letters and points continue a number. -/
theorem append (hx : IsNumber xs) (hy : ∀ c ∈ ys, isPlain c = true) : IsNumber (xs ++ ys) := by
  have hfeed : ∀ read, feed? (.number read) ys = some ([], .number (ys.reverse ++ read)) := by
    induction ys with
    | nil => exact fun _ => rfl
    | cons c ys ih =>
        intro read
        have hc : isPlain c = true := hy c List.mem_cons_self
        rw [List.reverse_cons, List.append_assoc]
        refine feed?_cons_iff.2 ⟨[], .number (c :: read), [], ?_,
          ih (fun x hx => hy x (List.mem_cons_of_mem _ hx)) _, rfl⟩
        rw [isPlain] at hc
        simp [step?, Mode.grow?, hc]
  rw [IsNumber, List.reverse_append]
  exact Reads.append hx ⟨unbroken_of_isPlain hy, hfeed _⟩

/-- So does a minus sign after the mark of an exponent. -/
theorem append_minus (hx : IsNumber (xs ++ ['e'])) : IsNumber (xs ++ ['e'] ++ ['-']) := by
  rw [IsNumber, List.reverse_append]
  refine Reads.append hx ⟨unbroken_of_notMem (by decide), ?_⟩
  rw [List.reverse_append]
  rfl

theorem spells (h : IsNumber xs) : Spells xs [.number xs] := by
  have := Spells.of_reads h (Mode.settled_number xs.reverse)
  rwa [Mode.pending, List.reverse_reverse] at this

theorem of_digits {digits : List Char} (hne : digits ≠ []) (h : ∀ c ∈ digits, c.isDigit = true) :
    IsNumber digits := by
  cases digits with
  | nil => exact absurd rfl hne
  | cons c cs =>
      exact (digit (h c List.mem_cons_self)).append fun x hx =>
        isPlain_of_isDigit (h x (List.mem_cons_of_mem _ hx))

end IsNumber

theorem isNumber_digitsOf (n : Nat) : IsNumber (digitsOf n) :=
  .of_digits (digitsOf_ne_nil n) fun _ => isDigit_of_mem_digitsOf

theorem isNumber_fixedPoint (places : Nat) {digits : List Char}
    (h : ∀ c ∈ digits, c.isDigit = true) : IsNumber (fixedPoint places digits) := by
  obtain ⟨whole, fraction, heq, hne, -, hw, hf, -⟩ := Decimal.fixedPoint_eq places h
  rw [heq]
  refine (IsNumber.of_digits hne hw).append fun c hc => ?_
  rcases List.mem_cons.1 hc with rfl | hc
  · rfl
  · exact isPlain_of_isDigit (hf c hc)

theorem isNumber_scientific (d : Decimal) : IsNumber d.scientific := by
  have hdigit : ∀ c ∈ d.digits, c.isDigit = true := fun _ => Decimal.isDigit_of_mem_digits
  obtain ⟨mantissa, heq, hnum⟩ : ∃ mantissa,
      d.scientific = mantissa ++ 'e' :: d.leadingExponent.repr.toList ∧ IsNumber mantissa := by
    refine ⟨_, rfl, ?_⟩
    split
    · rename_i hnil
      exact absurd hnil (digitsOf_ne_nil _)
    · rename_i first hd
      exact .digit (hdigit first (by simp [hd]))
    · rename_i first rest _ hd
      refine (IsNumber.digit (hdigit first (by simp [hd]))).append fun c hc => ?_
      rcases List.mem_cons.1 hc with rfl | hc
      · rfl
      · exact isPlain_of_isDigit (hdigit c (by simp [hd, hc]))
  have hmark : IsNumber (mantissa ++ ['e']) := hnum.append (List.forall_mem_singleton.2 rfl)
  have hexp : ∀ c ∈ digitsOf d.leadingExponent.natAbs, isPlain c = true :=
    fun _ hc => isPlain_of_isDigit (isDigit_of_mem_digitsOf hc)
  rw [heq, toList_repr_int]
  split
  · simpa using hmark.append_minus.append hexp
  · simpa using hmark.append hexp

theorem isNumber_floatChars (rank : Nat) : IsNumber (floatChars rank) := by
  refine IsNumber.append ?_ (List.forall_mem_singleton.2 rfl)
  rw [Decimal.text]
  split
  · obtain ⟨places, digits, heq, hdigits⟩ := (Decimal.shortest .single rank).exists_positional_eq
    rw [heq]
    exact isNumber_fixedPoint places hdigits
  · exact isNumber_scientific _

/-- What is spelled may have a minus sign in front. -/
theorem Spells.minus {cs : List Char} {ts : List Token} (h : Spells cs ts) (negative : Bool) :
    Spells ((if negative then ['-'] else []) ++ cs) (Program.minus negative ++ ts) := by
  cases negative with
  | false => exact h
  | true => exact Spells.of_lexes ⟨unbroken_of_notMem (by decide), rfl⟩ h

theorem spells_intText (n : Int32) : Spells (intText n).toList (intTokens n) := by
  have hsign : (if n.toInt < 0 then ['-'] else []) =
      if decide (n.toInt < 0) then ['-'] else [] := by simp
  rw [intText, toList_repr_int, hsign]
  exact (isNumber_digitsOf _).spells.minus _

/-- The literal of a finite number: its sign and its constant. -/
theorem toList_floatLiteral (negative : Bool) (rank : Fin Format.single.infinityRank) :
    (floatLiteral (.finite negative rank)).toList =
      (if negative then ['-'] else []) ++ floatChars rank := by
  rw [floatLiteral, Binary.exactText, Binary.textWith, String.toList_append, String.toList_append,
    toList_signText, String.toList_ofList, List.append_assoc]
  rfl

theorem spells_floatLiteral (x : Single) : Spells (floatLiteral x).toList (floatTokens x) := by
  cases x with
  | nan => exact spells_word (s := "NaNf") (by decide)
  | inf negative =>
      rw [floatLiteral, Binary.exactText, Binary.textWith, String.toList_append,
        String.toList_append, toList_signText, List.append_assoc]
      exact (spells_word (s := "inff") (by decide)).minus negative
  | finite negative rank =>
      rw [toList_floatLiteral]
      exact (isNumber_floatChars rank).spells.minus negative

theorem lexes_textLiteral (s : String) : Lexes (textLiteral s).toList [.text s] := by
  have hlexes := lexes_encodeText s.toList
  rwa [String.ofList_toList, ← String.toList_ofList (l := encodeText s.toList)] at hlexes

/-- **The literal of a scalar spells its tokens.** -/
theorem spells_literal (v : Scalar) : Spells (literal v).toList (scalarTokens v) := by
  cases v with
  | int n => exact spells_intText n
  | float x => exact spells_floatLiteral x
  | text s => exact (lexes_textLiteral s).spells

/-! ### The tokens of a literal are read as the scalar -/

/-- Whether a reader that knows some names can read a scalar. -/
def Legible (names : Names) : Scalar → Prop
  | .float x => x.isFinite = true ∨ names "NaNf" = some .nan ∧ names "inff" = some (.inf false)
  | .int _ | .text _ => True

theorem intConstant?_digitsOf (n : Nat) : intConstant? (digitsOf n) = some n := by
  have hzero : (digitsOf n).head? ≠ some '0' ∨ digitsOf n = ['0'] := by
    by_cases h : (digitsOf n).head? = some '0'
    · exact .inr (by rw [eq_zero_of_head?_digitsOf h]; rfl)
    · exact .inl h
  rw [intConstant?, if_pos ⟨isDigits_digitsOf n, hzero⟩, digitsValue_digitsOf]

theorem intConstant?_floatChars (rank : Nat) : intConstant? (floatChars rank) = none := by
  rw [intConstant?, if_neg]
  rintro ⟨h, -⟩
  -- the suffix is no digit
  rw [isDigits, Bool.and_eq_true, List.all_eq_true] at h
  exact absurd (h.2 'f' (by simp [floatChars])) (by decide)

/-- The constant of a magnitude rounds to the magnitude. -/
theorem floatConstant?_floatChars (rank : Fin Format.single.infinityRank) :
    floatConstant? (floatChars rank) = some (.finite false rank) := by
  obtain ⟨d, hd, hvalue⟩ := (Decimal.shortest .single rank).ofText?_text
  rw [floatConstant?, if_pos (.inl (by simp [floatChars])), floatChars, List.dropLast_concat, hd,
    Option.map_some, hvalue, Decimal.round_shortest]

/-- A constant token is read with or without a minus sign in front. -/
theorem scalar?_minus {names : Names} {t : Token} {c : Constant} {v : Scalar} {negative : Bool}
    (ht : constant? names t = some c) (hv : c.scalar? negative = some v) (ts : List Token) :
    scalar? names (minus negative ++ t :: ts) = some (v, ts) := by
  cases negative with
  | true => simp [minus, scalar?, ht, hv]
  | false =>
      cases t with
      | text s => cases ht
      | sign c => cases ht
      | word name => simp [minus, scalar?, ht, hv]
      | number cs => simp [minus, scalar?, ht, hv]

/-- **Reading undoes writing** for every scalar whose numbers the reader has constants or names
for. -/
theorem scalar?_scalarTokens {names : Names} {v : Scalar} (h : Legible names v) (ts : List Token) :
    scalar? names (scalarTokens v ++ ts) = some (v, ts) := by
  cases v with
  | text s => rfl
  | int n =>
      have hconst : constant? names (.number (digitsOf n.toInt.natAbs)) =
          some (.int n.toInt.natAbs) := by
        rw [constant?, intConstant?_digitsOf]
      have hvalue : (if decide (n.toInt < 0) then -(n.toInt.natAbs : Int) else n.toInt.natAbs) =
          n.toInt := by
        simp only [decide_eq_true_eq]
        omega
      rw [scalarTokens, intTokens, List.append_assoc]
      refine scalar?_minus hconst ?_ ts
      simp only [Constant.scalar?, hvalue]
      rw [if_pos ⟨n.minValue_le_toInt, n.toInt_le⟩, Int32.ofInt_toInt]
  | float x =>
      cases x with
      | nan =>
          have hname : names "NaNf" = some .nan := h.elim (by simp [Binary.isFinite]) And.left
          simp [scalarTokens, floatTokens, scalar?, constant?, hname, Constant.scalar?]
      | inf negative =>
          have hname : names "inff" = some (.inf false) :=
            h.elim (by simp [Binary.isFinite]) And.right
          rw [scalarTokens, floatTokens, List.append_assoc]
          refine scalar?_minus (c := .float (.inf false)) (by rw [constant?, hname]; rfl) ?_ ts
          cases negative <;> rfl
      | finite negative rank =>
          rw [scalarTokens, floatTokens, List.append_assoc]
          refine scalar?_minus (c := .float (.finite false rank)) ?_ ?_ ts
          · rw [constant?, intConstant?_floatChars, floatConstant?_floatChars]
            rfl
          · cases negative <;> rfl

theorem legible_nonFinite (v : Scalar) : Legible .nonFinite v := by
  cases v with
  | float x => exact .inr ⟨rfl, rfl⟩
  | int | text => trivial

/-- A literal is the literal of one scalar only. -/
theorem literal_injective : Function.Injective literal := by
  intro v w h
  have htokens : scalarTokens v = scalarTokens w :=
    (spells_literal v).unique (h ▸ spells_literal w)
  have hread := scalar?_scalarTokens (legible_nonFinite v) []
  rw [htokens, scalar?_scalarTokens (legible_nonFinite w)] at hread
  exact (Prod.mk.inj (Option.some.inj hread)).1.symm

end Program

end Paddock
