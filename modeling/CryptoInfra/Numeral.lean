import Mathlib.Algebra.Field.Rat
import Mathlib.Algebra.Order.Ring.Rat
import Mathlib.Data.List.TakeWhile
import Mathlib.Tactic.Common

/-!
# Numerals

The numerals of the C library: after optional white space and a sign, a decimal or hexadecimal
numeral with an optional exponent, an infinity, or a number that is none. The scanner reads the
longest numeral at the front of a text and returns the rest; it reads a text to its end exactly when
the grammar derives the text. Values are exact.
-/

namespace Numeral

/-- What a numeral denotes. -/
inductive Number where
  | finite (value : ℚ)
  | infinite (negative : Bool)
  | nan
  deriving DecidableEq

/-- Negate a value, if it is negative. -/
def applySign {α : Type*} [Neg α] (negative : Bool) (value : α) : α :=
  if negative then -value else value

instance : Neg Number where
  neg
    | .finite value => .finite (-value)
    | .infinite negative => .infinite !negative
    | .nan => .nan

/-! ## The scanner -/

/-- White space in front of a numeral. -/
def isSpace (character : Char) : Bool :=
  character = ' ' || (9 ≤ character.toNat && character.toNat ≤ 13)

/-- Characters of the payload of a number that is none. -/
def isPayload (character : Char) : Bool := character.isAlphanum || character = '_'

/-- The value of a decimal or hexadecimal digit. -/
def digitValue (digit : Char) : ℕ :=
  if digit.isDigit then digit.toNat - 48
  else if 'a' ≤ digit then digit.toNat - 87
  else digit.toNat - 55

/-- A positional format. -/
structure Radix where
  /-- Base of the digits. -/
  base : ℕ
  /-- Base of the exponent. -/
  scale : ℕ
  /-- The digits. -/
  isDigit : Char → Bool
  /-- The letters which introduce an exponent. -/
  isMarker : Char → Bool
  /-- The letters which introduce an exponent are not digits. -/
  marker_not_digit : ∀ character, isMarker character = true → isDigit character = false
  /-- The point is not a digit. -/
  point_not_digit : isDigit '.' = false
  /-- The point does not introduce an exponent. -/
  point_not_marker : isMarker '.' = false

/-- The decimal format. -/
def decimal : Radix where
  base := 10
  scale := 10
  isDigit := Char.isDigit
  isMarker character := character = 'e' || character = 'E'
  marker_not_digit := by
    intro character marker
    rw [Bool.or_eq_true, decide_eq_true_eq, decide_eq_true_eq] at marker
    rcases marker with rfl | rfl <;> rfl
  point_not_digit := rfl
  point_not_marker := rfl

/-- The hexadecimal format, with binary exponents. -/
def hexadecimal : Radix where
  base := 16
  scale := 2
  isDigit character :=
    character.isDigit || ('a' ≤ character && character ≤ 'f') ||
      ('A' ≤ character && character ≤ 'F')
  isMarker character := character = 'p' || character = 'P'
  marker_not_digit := by
    intro character marker
    rw [Bool.or_eq_true, decide_eq_true_eq, decide_eq_true_eq] at marker
    rcases marker with rfl | rfl <;> rfl
  point_not_digit := rfl
  point_not_marker := rfl

/-- The sign in front of a text, and the rest. -/
def sign : List Char → Bool × List Char
  | '-' :: rest => (true, rest)
  | '+' :: rest => (false, rest)
  | text => (false, text)

namespace Radix

variable (radix : Radix)

/-- The value of digits. -/
def value (digits : List Char) : ℕ :=
  digits.foldl (fun value digit => radix.base * value + digitValue digit) 0

/-- The digits behind a point in front of a text, if there is one, and the rest. -/
def fraction : List Char → List Char × List Char
  | '.' :: text => (text.takeWhile radix.isDigit, text.dropWhile radix.isDigit)
  | text => ([], text)

/-- The digits in front of a text, with at most one point, and the rest. -/
def mantissa (text : List Char) : Option (ℚ × List Char) :=
  let whole := text.takeWhile radix.isDigit
  let fractional := radix.fraction (text.dropWhile radix.isDigit)
  if whole ++ fractional.1 = [] then
    none
  else
    some (radix.value (whole ++ fractional.1) / (radix.base : ℚ) ^ fractional.1.length,
      fractional.2)

/-- The exponent in front of a text, if there is one, and the rest. -/
def exponent : List Char → ℤ × List Char
  | [] => (0, [])
  | marker :: rest =>
      let digits := (sign rest).2.takeWhile Char.isDigit
      if radix.isMarker marker ∧ digits ≠ [] then
        (applySign (sign rest).1 (decimal.value digits : ℤ),
          (sign rest).2.dropWhile Char.isDigit)
      else
        (0, marker :: rest)

/-- The numeral without sign in front of a text, and the rest. -/
def scan (text : List Char) : Option (ℚ × List Char) :=
  (radix.mantissa text).map fun scanned =>
    let power := radix.exponent scanned.2
    (scanned.1 * (radix.scale : ℚ) ^ power.1, power.2)

end Radix

/-- Strip a word from the front of a text, in either case. -/
def stripWord : (word text : List Char) → Option (List Char)
  | [], text => some text
  | _ :: _, [] => none
  | letter :: word, character :: text =>
      if character.toLower = letter then stripWord word text else none

/-- Strip the payload of a number that is none, if it is complete. -/
def stripPayload : List Char → List Char
  | '(' :: text =>
      match text.dropWhile isPayload with
      | ')' :: rest => rest
      | _ => '(' :: text
  | text => text

/-- The hexadecimal numeral in front of a text, and the rest. -/
def hexadecimalNumeral : List Char → Option (ℚ × List Char)
  | '0' :: letter :: text =>
      if letter = 'x' ∨ letter = 'X' then hexadecimal.scan text else none
  | _ => none

/-- The numeral without sign in front of a text, and the rest. -/
def magnitude (text : List Char) : Option (Number × List Char) :=
  ((stripWord "infinity".toList text).map fun rest => (.infinite false, rest)).or
    (((stripWord "inf".toList text).map fun rest => (.infinite false, rest)).or
      (((stripWord "nan".toList text).map fun rest => (.nan, stripPayload rest)).or
        (((hexadecimalNumeral text).or (decimal.scan text)).map fun scanned =>
          (.finite scanned.1, scanned.2))))

/-- The value of the longest numeral in front of a text, and the rest; without a numeral, zero and
the whole text. -/
def strtod (text : List Char) : Number × List Char :=
  let signed := sign (text.dropWhile isSpace)
  match magnitude signed.2 with
  | some scanned => (applySign signed.1 scanned.1, scanned.2)
  | none => (.finite 0, text)

/-! ## The grammar -/

/-- Text of a sign. -/
inductive Sign : List Char → Bool → Prop where
  | none : Sign [] false
  | plus : Sign ['+'] false
  | minus : Sign ['-'] true

/-- Text of digits with at most one point. -/
inductive Radix.Mantissa (radix : Radix) : List Char → ℚ → Prop where
  | whole {digits : List Char} (all : ∀ digit ∈ digits, radix.isDigit digit = true)
      (some_digit : digits ≠ []) : Mantissa radix digits (radix.value digits)
  | point {whole fraction : List Char} (all_whole : ∀ digit ∈ whole, radix.isDigit digit = true)
      (all_fraction : ∀ digit ∈ fraction, radix.isDigit digit = true)
      (some_digit : whole ++ fraction ≠ []) :
      Mantissa radix (whole ++ '.' :: fraction)
        (radix.value (whole ++ fraction) / (radix.base : ℚ) ^ fraction.length)

/-- Text of an optional exponent. -/
inductive Radix.Exponent (radix : Radix) : List Char → ℤ → Prop where
  | none : Exponent radix [] 0
  | power {marker : Char} {signText digits : List Char} {negative : Bool}
      (introduces : radix.isMarker marker = true) (signed : Sign signText negative)
      (all : ∀ digit ∈ digits, digit.isDigit = true) (some_digit : digits ≠ []) :
      Exponent radix (marker :: (signText ++ digits))
        (applySign negative (decimal.value digits : ℤ))

/-- Text of the optional payload of a number that is none. -/
inductive Payload : List Char → Prop where
  | none : Payload []
  | some {characters : List Char} (all : ∀ character ∈ characters, isPayload character = true) :
      Payload ('(' :: (characters ++ [')']))

/-- Text of a numeral without sign. -/
inductive Magnitude : List Char → Number → Prop where
  | infinite {word : List Char} (spelled : word.map Char.toLower = "inf".toList ∨
      word.map Char.toLower = "infinity".toList) : Magnitude word (.infinite false)
  | nan {word payload : List Char} (spelled : word.map Char.toLower = "nan".toList)
      (complete : Payload payload) : Magnitude (word ++ payload) .nan
  | hexadecimal {letter : Char} {mantissa exponent : List Char} {value : ℚ} {power : ℤ}
      (introduces : letter = 'x' ∨ letter = 'X') (digits : hexadecimal.Mantissa mantissa value)
      (scaled : hexadecimal.Exponent exponent power) :
      Magnitude ('0' :: letter :: (mantissa ++ exponent)) (.finite (value * (2 : ℕ) ^ power))
  | decimal {mantissa exponent : List Char} {value : ℚ} {power : ℤ}
      (digits : decimal.Mantissa mantissa value) (scaled : decimal.Exponent exponent power) :
      Magnitude (mantissa ++ exponent) (.finite (value * (10 : ℕ) ^ power))

/-- Text of a numeral. -/
inductive Derives : List Char → Number → Prop where
  | numeral {spaces signText text : List Char} {negative : Bool} {number : Number}
      (blank : ∀ character ∈ spaces, isSpace character = true) (signed : Sign signText negative)
      (magnitude : Magnitude text number) :
      Derives (spaces ++ (signText ++ text)) (applySign negative number)

/-- Text of a finite decimal number: a sign, digits and an exponent, and nothing else. -/
inductive Decimal : List Char → ℚ → Prop where
  | numeral {signText mantissa exponent : List Char} {negative : Bool} {value : ℚ} {power : ℤ}
      (signed : Sign signText negative) (digits : decimal.Mantissa mantissa value)
      (scaled : decimal.Exponent exponent power) :
      Decimal (signText ++ (mantissa ++ exponent))
        (applySign negative (value * (10 : ℕ) ^ power))

/-! ## Runs of characters -/

theorem takeWhile_append_stop {property : Char → Bool} {front rest : List Char}
    (inside : ∀ character ∈ front, property character = true)
    (stop : ∀ character, rest.head? = some character → property character = false) :
    (front ++ rest).takeWhile property = front := by
  rw [List.takeWhile_append_of_pos inside]
  cases rest with
  | nil => simp
  | cons character rest => simp [stop character rfl]

theorem dropWhile_append_stop {property : Char → Bool} {front rest : List Char}
    (inside : ∀ character ∈ front, property character = true)
    (stop : ∀ character, rest.head? = some character → property character = false) :
    (front ++ rest).dropWhile property = rest := by
  rw [List.dropWhile_append_of_pos inside]
  cases rest with
  | nil => simp
  | cons character rest => simp [stop character rfl]

theorem of_mem_takeWhile {property : Char → Bool} {text : List Char} {character : Char}
    (member : character ∈ text.takeWhile property) : property character = true :=
  List.mem_takeWhile_imp member

/-! ## Signs -/

theorem sign_sound (text : List Char) :
    ∃ front, text = front ++ (sign text).2 ∧ Sign front (sign text).1 := by
  unfold sign
  split
  · exact ⟨['-'], rfl, .minus⟩
  · exact ⟨['+'], rfl, .plus⟩
  · exact ⟨[], rfl, .none⟩

theorem sign_of_head {text : List Char}
    (unsigned : ∀ character, text.head? = some character → character ≠ '-' ∧ character ≠ '+') :
    sign text = (false, text) := by
  unfold sign
  split
  · exact absurd rfl (unsigned '-' rfl).1
  · exact absurd rfl (unsigned '+' rfl).2
  · rfl

theorem sign_complete {front rest : List Char} {negative : Bool} (signed : Sign front negative)
    (unsigned : ∀ character, rest.head? = some character → character ≠ '-' ∧ character ≠ '+') :
    sign (front ++ rest) = (negative, rest) := by
  cases signed with
  | none => exact sign_of_head unsigned
  | plus => rfl
  | minus => rfl

/-! ## Mantissas and exponents -/

namespace Radix

variable (radix : Radix)

theorem fraction_of_head {text : List Char} (no_point : text.head? ≠ some '.') :
    radix.fraction text = ([], text) := by
  unfold fraction
  split
  · exact absurd rfl no_point
  · rfl

/-- The scanned mantissa is one of the grammar. -/
theorem mantissa_sound {text rest : List Char} {value : ℚ}
    (scanned : radix.mantissa text = some (value, rest)) :
    ∃ front, text = front ++ rest ∧ radix.Mantissa front value := by
  have split := (List.takeWhile_append_dropWhile (p := radix.isDigit) (l := text)).symm
  unfold mantissa at scanned
  dsimp only at scanned
  split_ifs at scanned with empty
  have all_whole : ∀ digit ∈ text.takeWhile radix.isDigit, radix.isDigit digit = true :=
    fun _ => of_mem_takeWhile
  generalize text.takeWhile radix.isDigit = whole at *
  generalize text.dropWhile radix.isDigit = behind at *
  by_cases point : behind.head? = some '.'
  · obtain ⟨digits, rfl⟩ := List.head?_eq_some_iff.mp point
    have digits_split :=
      (List.takeWhile_append_dropWhile (p := radix.isDigit) (l := digits)).symm
    have all_fraction : ∀ digit ∈ digits.takeWhile radix.isDigit, radix.isDigit digit = true :=
      fun _ => of_mem_takeWhile
    simp only [fraction, Option.some.injEq, Prod.mk.injEq] at scanned empty
    obtain ⟨rfl, rfl⟩ := scanned
    refine ⟨_, ?_, .point all_whole all_fraction empty⟩
    rw [split, List.append_assoc, List.cons_append, ← digits_split]
  · rw [fraction_of_head radix point] at scanned empty
    simp only [List.append_nil, List.length_nil, pow_zero, div_one, Option.some.injEq,
      Prod.mk.injEq] at scanned empty
    obtain ⟨rfl, rfl⟩ := scanned
    exact ⟨whole, split, .whole all_whole empty⟩

/-- A mantissa of the grammar is scanned, if no digit and no point follows. -/
theorem mantissa_complete {front rest : List Char} {value : ℚ}
    (digits : radix.Mantissa front value)
    (stop : ∀ character, rest.head? = some character →
      radix.isDigit character = false ∧ character ≠ '.') :
    radix.mantissa (front ++ rest) = some (value, rest) := by
  have stop_digit := fun character found => (stop character found).1
  cases digits with
  | whole all some_digit =>
      have no_point : rest.head? ≠ some '.' := fun point => (stop '.' point).2 rfl
      simp [mantissa, takeWhile_append_stop all stop_digit, dropWhile_append_stop all stop_digit,
        fraction_of_head radix no_point, some_digit]
  | @point whole fraction all_whole all_fraction some_digit =>
      have stop_point : ∀ character, ('.' :: (fraction ++ rest)).head? = some character →
          radix.isDigit character = false := by
        rintro character ⟨⟩
        exact radix.point_not_digit
      rw [List.append_assoc, List.cons_append]
      simp only [mantissa, takeWhile_append_stop all_whole stop_point,
        dropWhile_append_stop all_whole stop_point, Radix.fraction,
        takeWhile_append_stop all_fraction stop_digit,
        dropWhile_append_stop all_fraction stop_digit, if_neg some_digit]

theorem exponent_sound (text : List Char) :
    ∃ front, text = front ++ (radix.exponent text).2 ∧
      radix.Exponent front (radix.exponent text).1 := by
  cases text with
  | nil => exact ⟨[], rfl, .none⟩
  | cons marker rest =>
      unfold exponent
      dsimp only
      split_ifs with scanned
      · obtain ⟨introduces, some_digit⟩ := scanned
        obtain ⟨signText, split, signed⟩ := sign_sound rest
        have digits_split :=
          (List.takeWhile_append_dropWhile (p := Char.isDigit) (l := (sign rest).2)).symm
        refine ⟨_, ?_, .power introduces signed (fun _ => of_mem_takeWhile) some_digit⟩
        rw [List.cons_append, List.append_assoc, ← digits_split, ← split]
      · exact ⟨[], rfl, .none⟩

theorem exponent_complete {text : List Char} {power : ℤ} (scaled : radix.Exponent text power) :
    radix.exponent text = (power, []) := by
  cases scaled with
  | none => rfl
  | @power marker signText digits negative introduces signed all some_digit =>
      have unsigned : ∀ character, digits.head? = some character →
          character ≠ '-' ∧ character ≠ '+' := by
        intro character found
        have digit := all character (List.mem_of_mem_head? found)
        constructor <;> rintro rfl <;> exact absurd digit (by decide)
      have signs := sign_complete signed unsigned
      have digits_only : digits.takeWhile Char.isDigit = digits :=
        List.takeWhile_eq_self_iff.mpr all
      have nothing_left : digits.dropWhile Char.isDigit = [] :=
        List.dropWhile_eq_nil_iff.mpr all
      simp [exponent, introduces, signs, digits_only, nothing_left, some_digit]

/-- A scanned numeral without sign is one of the grammar. -/
theorem scan_sound {text rest : List Char} {scaled : ℚ}
    (scanned : radix.scan text = some (scaled, rest)) :
    ∃ mantissa exponent value power, text = mantissa ++ exponent ++ rest ∧
      radix.Mantissa mantissa value ∧ radix.Exponent exponent power ∧
        scaled = value * (radix.scale : ℚ) ^ power := by
  obtain ⟨⟨value, behind⟩, digits, same⟩ := Option.map_eq_some_iff.mp scanned
  obtain ⟨rfl, rfl⟩ := Prod.mk.inj same
  obtain ⟨mantissa, rfl, derived⟩ := radix.mantissa_sound digits
  obtain ⟨exponent, split, power⟩ := radix.exponent_sound behind
  refine ⟨mantissa, exponent, value, _, ?_, derived, power, rfl⟩
  rw [List.append_assoc, ← split]

/-- A numeral of the grammar is scanned to its end. -/
theorem scan_complete {mantissa exponent : List Char} {value : ℚ} {power : ℤ}
    (digits : radix.Mantissa mantissa value) (scaled : radix.Exponent exponent power) :
    radix.scan (mantissa ++ exponent) = some (value * (radix.scale : ℚ) ^ power, []) := by
  have stop : ∀ character, exponent.head? = some character →
      radix.isDigit character = false ∧ character ≠ '.' := by
    intro character found
    cases scaled with
    | none => simp at found
    | power introduces signed all some_digit =>
        obtain rfl := Option.some.inj found
        refine ⟨radix.marker_not_digit _ introduces, ?_⟩
        rintro rfl
        exact absurd introduces (by simp [radix.point_not_marker])
  simp [scan, radix.mantissa_complete digits stop, radix.exponent_complete scaled]

end Radix

/-! ## Words -/

/-- Stripping a word strips a spelling of it. -/
theorem stripWord_eq_some_iff {word text rest : List Char} :
    stripWord word text = some rest ↔
      ∃ front, text = front ++ rest ∧ front.map Char.toLower = word := by
  induction word generalizing text with
  | nil =>
      rw [stripWord, Option.some.injEq]
      constructor
      · rintro rfl
        exact ⟨[], rfl, rfl⟩
      · rintro ⟨front, rfl, spelled⟩
        rw [List.map_eq_nil_iff.mp spelled, List.nil_append]
  | cons letter word induction =>
      cases text with
      | nil =>
          rw [stripWord]
          constructor
          · exact nofun
          · rintro ⟨front, split, spelled⟩
            rw [(List.append_eq_nil_iff.mp split.symm).1] at spelled
            exact nomatch spelled
      | cons character text =>
          rw [stripWord]
          split <;> rename_i same
          · rw [induction]
            constructor
            · rintro ⟨front, rfl, rfl⟩
              exact ⟨character :: front, rfl, by rw [List.map_cons, same]⟩
            · rintro ⟨front, split, spelled⟩
              obtain ⟨first, front, rfl, rfl, rfl⟩ := List.map_eq_cons_iff.mp spelled
              exact ⟨front, (List.cons.inj split).2, rfl⟩
          · constructor
            · exact nofun
            · rintro ⟨front, split, spelled⟩
              obtain ⟨first, front, rfl, rfl, rfl⟩ := List.map_eq_cons_iff.mp spelled
              exact absurd (congrArg Char.toLower (List.cons.inj split).1) same

/-- A text with another first letter is no spelling of a word. -/
theorem stripWord_eq_none {letter : Char} {word text : List Char} (first : word.head? = some letter)
    (different : ∀ character, text.head? = some character → character.toLower ≠ letter) :
    stripWord word text = none := by
  obtain ⟨word, rfl⟩ := List.head?_eq_some_iff.mp first
  cases text with
  | nil => rfl
  | cons character text => rw [stripWord, if_neg (different character rfl)]

theorem stripWord_of_length_lt {word text : List Char} (short : text.length < word.length) :
    stripWord word text = none := by
  rw [Option.eq_none_iff_forall_ne_some]
  intro rest stripped
  obtain ⟨front, rfl, rfl⟩ := stripWord_eq_some_iff.mp stripped
  rw [List.length_map, List.length_append] at short
  omega

theorem stripPayload_sound (text : List Char) :
    ∃ front, text = front ++ stripPayload text ∧ Payload front := by
  unfold stripPayload
  split
  · rename_i text
    split
    · rename_i rest closed
      have split := (List.takeWhile_append_dropWhile (p := isPayload) (l := text)).symm
      rw [closed] at split
      have payload : ∀ character ∈ text.takeWhile isPayload, isPayload character = true :=
        fun _ => of_mem_takeWhile
      refine ⟨_, ?_, .some payload⟩
      rw [List.cons_append, List.append_assoc, List.singleton_append, ← split]
    · exact ⟨[], rfl, .none⟩
  · exact ⟨[], rfl, .none⟩

theorem stripPayload_complete {text : List Char} (complete : Payload text) :
    stripPayload text = [] := by
  cases complete with
  | none => rfl
  | some all =>
      have stop : ∀ character, [')'].head? = some character → isPayload character = false := by
        rintro character ⟨⟩
        rfl
      simp [stripPayload, dropWhile_append_stop all stop]

/-! ## Numerals -/

theorem Radix.Mantissa.mem {radix : Radix} {text : List Char} {value : ℚ}
    (digits : radix.Mantissa text value) :
    ∀ character ∈ text, radix.isDigit character = true ∨ character = '.' := by
  intro character member
  cases digits with
  | whole all some_digit => exact Or.inl (all character member)
  | point all_whole all_fraction some_digit =>
      rcases List.mem_append.mp member with in_whole | behind
      · exact Or.inl (all_whole character in_whole)
      · rcases List.mem_cons.mp behind with point | in_fraction
        · exact Or.inr point
        · exact Or.inl (all_fraction character in_fraction)

theorem Radix.Mantissa.ne_nil {radix : Radix} {text : List Char} {value : ℚ}
    (digits : radix.Mantissa text value) : text ≠ [] := by
  cases digits with
  | whole all some_digit => exact some_digit
  | point all_whole all_fraction some_digit => simp

theorem Radix.Exponent.mem {radix : Radix} {text : List Char} {power : ℤ}
    (scaled : radix.Exponent text power) :
    ∀ character ∈ text, radix.isMarker character = true ∨ character.isDigit = true ∨
      character = '+' ∨ character = '-' := by
  intro character member
  cases scaled with
  | none => simp at member
  | power introduces signed all some_digit =>
      rcases List.mem_cons.mp member with rfl | behind
      · exact Or.inl introduces
      · rcases List.mem_append.mp behind with in_sign | in_digits
        · cases signed with
          | none => simp at in_sign
          | plus => exact Or.inr (Or.inr (Or.inl (List.mem_singleton.mp in_sign)))
          | minus => exact Or.inr (Or.inr (Or.inr (List.mem_singleton.mp in_sign)))
        · exact Or.inr (Or.inl (all character in_digits))

theorem toLower_of_lt {character : Char} (small : character.toNat < 65) :
    character.toLower = character := by
  unfold Char.toLower
  rw [dif_neg]
  rintro ⟨upper, -⟩
  have large := UInt32.le_iff_toNat_le.mp upper
  exact absurd (Nat.lt_of_le_of_lt large small) (by decide)

theorem isDigit_range {character : Char} (digit : character.isDigit = true) :
    48 ≤ character.toNat ∧ character.toNat ≤ 57 := by
  have range : 48 ≤ character.val ∧ character.val ≤ 57 := by simpa [Char.isDigit] using digit
  exact ⟨UInt32.le_iff_toNat_le.mp range.1, UInt32.le_iff_toNat_le.mp range.2⟩

/-- Letters other than the one of the exponent do not occur in a decimal numeral. -/
theorem toLower_ne_of_decimal {mantissa exponent : List Char} {value : ℚ} {power : ℤ}
    (digits : decimal.Mantissa mantissa value) (scaled : decimal.Exponent exponent power) :
    ∀ character ∈ mantissa ++ exponent, ∀ letter, letter = 'i' ∨ letter = 'n' ∨ letter = 'x' →
      character.toLower ≠ letter := by
  intro character member letter forbidden
  have digit_case : character.isDigit = true → character.toLower ≠ letter := by
    intro digit
    have range := isDigit_range digit
    rw [toLower_of_lt (by omega)]
    rintro rfl
    rcases forbidden with rfl | rfl | rfl <;> exact absurd digit (by decide)
  rcases List.mem_append.mp member with in_mantissa | in_exponent
  · rcases digits.mem character in_mantissa with digit | rfl
    · exact digit_case digit
    · rcases forbidden with rfl | rfl | rfl <;> decide
  · rcases scaled.mem character in_exponent with marker | digit | rfl | rfl
    · simp only [decimal, Bool.or_eq_true, decide_eq_true_eq] at marker
      rcases marker with rfl | rfl <;> rcases forbidden with rfl | rfl | rfl <;> decide
    · exact digit_case digit
    · rcases forbidden with rfl | rfl | rfl <;> decide
    · rcases forbidden with rfl | rfl | rfl <;> decide

theorem hexadecimalNumeral_sound {text rest : List Char} {value : ℚ}
    (scanned : hexadecimalNumeral text = some (value, rest)) :
    ∃ front, text = front ++ rest ∧ Magnitude front (.finite value) := by
  unfold hexadecimalNumeral at scanned
  split at scanned
  · split at scanned
    · rename_i introduces
      obtain ⟨mantissa, exponent, value, power, rfl, digits, scaled, rfl⟩ :=
        hexadecimal.scan_sound scanned
      exact ⟨_, rfl, .hexadecimal introduces digits scaled⟩
    · exact nomatch scanned
  · exact nomatch scanned

theorem magnitude_sound {text rest : List Char} {number : Number}
    (scanned : magnitude text = some (number, rest)) :
    ∃ front, text = front ++ rest ∧ Magnitude front number := by
  simp only [magnitude, Option.or_eq_some_iff, Option.map_eq_some_iff, Prod.mk.injEq] at scanned
  rcases scanned with ⟨_, stripped, rfl, rfl⟩ | ⟨-, ⟨_, stripped, rfl, rfl⟩ | ⟨-,
    ⟨rest, stripped, rfl, rfl⟩ | ⟨-, ⟨value, rest⟩, numeral, rfl, rfl⟩⟩⟩
  · obtain ⟨front, split, spelled⟩ := stripWord_eq_some_iff.mp stripped
    exact ⟨front, split, .infinite (Or.inr spelled)⟩
  · obtain ⟨front, split, spelled⟩ := stripWord_eq_some_iff.mp stripped
    exact ⟨front, split, .infinite (Or.inl spelled)⟩
  · obtain ⟨front, split, spelled⟩ := stripWord_eq_some_iff.mp stripped
    obtain ⟨payload, behind, complete⟩ := stripPayload_sound rest
    refine ⟨front ++ payload, ?_, .nan spelled complete⟩
    rw [List.append_assoc, ← behind, split]
  · rcases numeral with sixteen | ⟨-, ten⟩
    · exact hexadecimalNumeral_sound sixteen
    · obtain ⟨mantissa, exponent, value, power, rfl, digits, scaled, rfl⟩ :=
        decimal.scan_sound ten
      exact ⟨_, rfl, .decimal digits scaled⟩

theorem hexadecimalNumeral_of_decimal {mantissa exponent : List Char} {value : ℚ} {power : ℤ}
    (digits : decimal.Mantissa mantissa value) (scaled : decimal.Exponent exponent power) :
    hexadecimalNumeral (mantissa ++ exponent) = none := by
  have letters := toLower_ne_of_decimal digits scaled
  unfold hexadecimalNumeral
  split
  · rename_i letter text split
    rw [split] at letters
    have no_letter := letters letter (by simp) 'x' (by simp)
    rw [if_neg]
    rintro (rfl | rfl) <;> exact no_letter (by decide)
  · rfl

theorem magnitude_of_infinite {text : List Char}
    (spelled : text.map Char.toLower = "inf".toList ∨
      text.map Char.toLower = "infinity".toList) :
    magnitude text = some (.infinite false, []) := by
  have whole : ∀ word, text.map Char.toLower = word → stripWord word text = some [] :=
    fun word spelled => stripWord_eq_some_iff.mpr ⟨text, (List.append_nil text).symm, spelled⟩
  rcases spelled with short | long
  · have length : text.length = 3 := by simpa using congrArg List.length short
    have not_long : stripWord "infinity".toList text = none :=
      stripWord_of_length_lt (by simp [length])
    simp only [magnitude, not_long, whole _ short, Option.map_none, Option.map_some,
      Option.none_or, Option.some_or]
  · simp only [magnitude, whole _ long, Option.map_some, Option.some_or]

theorem magnitude_of_nan {word payload : List Char}
    (spelled : word.map Char.toLower = "nan".toList) (complete : Payload payload) :
    magnitude (word ++ payload) = some (.nan, []) := by
  have first : ∀ character, (word ++ payload).head? = some character →
      character.toLower ≠ 'i' := by
    obtain ⟨letter, word, rfl, letter_lower, -⟩ := List.map_eq_cons_iff.mp spelled
    rintro character ⟨⟩
    rw [letter_lower]
    decide
  have infinity : stripWord "infinity".toList (word ++ payload) = none :=
    stripWord_eq_none rfl first
  have inf : stripWord "inf".toList (word ++ payload) = none := stripWord_eq_none rfl first
  have nan : stripWord "nan".toList (word ++ payload) = some payload :=
    stripWord_eq_some_iff.mpr ⟨word, rfl, spelled⟩
  simp only [magnitude, infinity, inf, nan, stripPayload_complete complete, Option.map_none,
    Option.map_some, Option.none_or, Option.some_or]

/-- A text which starts like no word is scanned as digits. -/
theorem magnitude_of_head {text : List Char}
    (first : ∀ character, text.head? = some character →
      character.toLower ≠ 'i' ∧ character.toLower ≠ 'n') :
    magnitude text =
      ((hexadecimalNumeral text).or (decimal.scan text)).map fun scanned =>
        (.finite scanned.1, scanned.2) := by
  have infinity : stripWord "infinity".toList text = none :=
    stripWord_eq_none rfl fun character found => (first character found).1
  have inf : stripWord "inf".toList text = none :=
    stripWord_eq_none rfl fun character found => (first character found).1
  have nan : stripWord "nan".toList text = none :=
    stripWord_eq_none rfl fun character found => (first character found).2
  simp only [magnitude, infinity, inf, nan, Option.map_none, Option.none_or]

theorem magnitude_complete {text : List Char} {number : Number}
    (derived : Magnitude text number) : magnitude text = some (number, []) := by
  cases derived with
  | infinite spelled => exact magnitude_of_infinite spelled
  | nan spelled complete => exact magnitude_of_nan spelled complete
  | @hexadecimal letter mantissa exponent value power introduces digits scaled =>
      have scanned := hexadecimal.scan_complete digits scaled
      rw [magnitude_of_head, hexadecimalNumeral, if_pos introduces, scanned]
      · rfl
      · rintro character ⟨⟩
        decide
  | @decimal mantissa exponent value power digits scaled =>
      rw [magnitude_of_head, hexadecimalNumeral_of_decimal digits scaled,
        decimal.scan_complete digits scaled]
      · rfl
      · intro character found
        have letters :=
          toLower_ne_of_decimal digits scaled character (List.mem_of_mem_head? found)
        exact ⟨letters 'i' (by simp), letters 'n' (by simp)⟩

/-! ## Whole texts -/

theorem plain_of_le {character : Char} (large : 46 ≤ character.toNat) :
    isSpace character = false ∧ character ≠ '-' ∧ character ≠ '+' := by
  refine ⟨?_, ?_, ?_⟩
  · have no_blank : character ≠ ' ' := by
      rintro rfl
      exact absurd large (by decide)
    have not_control : ¬ character.toNat ≤ 13 := by omega
    simp [isSpace, no_blank, not_control]
  · rintro rfl
    exact absurd large (by decide)
  · rintro rfl
    exact absurd large (by decide)

/-- A numeral without sign starts with no white space and no sign. -/
theorem Magnitude.le_head {text : List Char} {number : Number} (derived : Magnitude text number) :
    ∀ character, text.head? = some character → 46 ≤ character.toNat := by
  have word_case : ∀ {letter character : Char}, character.toLower = letter → 65 ≤ letter.toNat →
      46 ≤ character.toNat := by
    rintro letter character rfl large
    by_contra small
    rw [toLower_of_lt (by omega)] at large
    omega
  intro character found
  cases derived with
  | infinite spelled =>
      rcases spelled with spelled | spelled <;>
      · obtain ⟨letter, word, rfl, letter_lower, -⟩ := List.map_eq_cons_iff.mp spelled
        obtain rfl := Option.some.inj found
        exact word_case letter_lower (by decide)
  | nan spelled complete =>
      obtain ⟨letter, word, rfl, letter_lower, -⟩ := List.map_eq_cons_iff.mp spelled
      obtain rfl := Option.some.inj found
      exact word_case letter_lower (by decide)
  | hexadecimal introduces digits scaled =>
      obtain rfl := Option.some.inj found
      decide
  | decimal digits scaled =>
      obtain ⟨first, rest, rfl⟩ := List.exists_cons_of_ne_nil digits.ne_nil
      obtain rfl := Option.some.inj found
      rcases digits.mem first List.mem_cons_self with digit | rfl
      · have range := isDigit_range digit
        omega
      · decide

/-- The scanner reads a numeral of the grammar, or nothing. -/
theorem strtod_sound (text : List Char) :
    (∃ front, text = front ++ (strtod text).2 ∧ Derives front (strtod text).1) ∨
      strtod text = (.finite 0, text) := by
  have blanks := (List.takeWhile_append_dropWhile (p := isSpace) (l := text)).symm
  obtain ⟨signText, signs, signed⟩ := sign_sound (text.dropWhile isSpace)
  unfold strtod
  dsimp only
  split
  · rename_i scanned found
    obtain ⟨front, split, derived⟩ := magnitude_sound found
    have spaces : ∀ character ∈ text.takeWhile isSpace, isSpace character = true :=
      fun _ => of_mem_takeWhile
    refine Or.inl ⟨_, ?_, .numeral spaces signed derived⟩
    rw [List.append_assoc, List.append_assoc, ← split, ← signs, ← blanks]
  · exact Or.inr rfl

example : strtod "infinit".toList = (.infinite false, "init".toList) := rfl

theorem strtod_complete {text : List Char} {number : Number} (derived : Derives text number) :
    strtod text = (number, []) := by
  cases derived with
  | @numeral spaces signText text negative number blank signed derived =>
      have unsigned : ∀ character, text.head? = some character →
          character ≠ '-' ∧ character ≠ '+' :=
        fun character found => (plain_of_le (derived.le_head character found)).2
      have stop : ∀ character, (signText ++ text).head? = some character →
          isSpace character = false := by
        intro character found
        cases signed with
        | none => exact (plain_of_le (derived.le_head character found)).1
        | plus =>
            obtain rfl := Option.some.inj found
            rfl
        | minus =>
            obtain rfl := Option.some.inj found
            rfl
      simp [strtod, dropWhile_append_stop blank stop, sign_complete signed unsigned,
        magnitude_complete derived]

/-- The scanner reads a text to its end exactly when the grammar derives it or it is empty. -/
theorem strtod_eq_iff {text : List Char} {number : Number} :
    strtod text = (number, []) ↔ (text = [] ∧ number = .finite 0) ∨ Derives text number := by
  constructor
  · intro scanned
    rcases strtod_sound text with ⟨front, split, derived⟩ | nothing
    · rw [scanned] at split derived
      rw [List.append_nil] at split
      exact Or.inr (split ▸ derived)
    · rw [scanned, Prod.mk.injEq] at nothing
      exact Or.inl ⟨nothing.2.symm, nothing.1⟩
  · rintro (⟨rfl, rfl⟩ | derived)
    · rfl
    · exact strtod_complete derived

/-- A text denotes one number at most. -/
theorem Derives.unique {text : List Char} {left right : Number} (derived : Derives text left)
    (again : Derives text right) : left = right := by
  have same := (strtod_complete derived).symm.trans (strtod_complete again)
  exact congrArg Prod.fst same

theorem Magnitude.ne_nil {text : List Char} {number : Number} (derived : Magnitude text number) :
    text ≠ [] := by
  rintro rfl
  have scanned := magnitude_complete derived
  cases scanned

theorem Derives.ne_nil {text : List Char} {number : Number} (derived : Derives text number) :
    text ≠ [] := by
  cases derived with
  | numeral blank signed magnitude => simp [magnitude.ne_nil]

theorem Decimal.derives {text : List Char} {value : ℚ} (derived : Decimal text value) :
    Derives text (.finite value) := by
  cases derived with
  | @numeral signText mantissa exponent negative value power signed digits scaled =>
      have no_blank : ∀ character ∈ ([] : List Char), isSpace character = true := nofun
      have numeral := Derives.numeral no_blank signed (.decimal digits scaled)
      cases negative <;> exact numeral

theorem Decimal.ne_nil {text : List Char} {value : ℚ} (derived : Decimal text value) :
    text ≠ [] := by
  cases derived with
  | numeral signed digits scaled => simp [digits.ne_nil]

/-- Digits behind a sign are a decimal number. -/
theorem Decimal.of_signed_digits {signText digits : List Char} {negative : Bool}
    (signed : Sign signText negative) (all : digits.all Char.isDigit = true)
    (some_digit : digits ≠ []) :
    Decimal (signText ++ digits) (applySign negative (decimal.value digits : ℚ)) := by
  have mantissa : decimal.Mantissa digits (decimal.value digits) :=
    .whole (List.all_eq_true.mp all) some_digit
  have numeral := Decimal.numeral signed mantissa .none
  simpa using numeral

/-- Digits alone are a decimal number. -/
theorem Decimal.of_digits {digits : List Char} {value : ℚ}
    (all : digits.all Char.isDigit = true) (some_digit : digits.isEmpty = false)
    (denoted : decimal.value digits = value) : Decimal digits value := by
  have numeral := Decimal.of_signed_digits .none all (List.isEmpty_eq_false_iff.mp some_digit)
  rwa [applySign, if_neg Bool.false_ne_true, denoted] at numeral

end Numeral
