import CryptoInfra.Exchange.Coinbase
import Mathlib.Data.List.Forall2

/-!
# Results of whole numbers

A result on request should hold numbers only which were read from a present text as a whole. The
ticker ignores whether its conversions succeed, and the levels of an order book convert the front of
a text, start from zeros, and wrap a negative number of orders. This file determines the responses
for which every result still is one of whole numbers.
-/

namespace CryptoInfra

namespace Coinbase

variable {Double : Type} (format : DoubleFormat Double)

/-! ## Whole numbers -/

/-- The number was read from a text which is present and is a numeral as a whole. -/
def WholeText (field : Option Json) (number : Option Double) : Prop :=
  ∃ text value, field = some (.string text) ∧ Numeral.Derives text.toList value ∧
    number = some (format.round value)

/-- The number was read from a number which is present and denotes it as a whole. -/
def WholeCount (field : Option Json) (count : UInt64) : Prop :=
  ∃ literal, field = some (.number literal) ∧
    Numeral.Derives literal.toList (.finite count.toNat)

/-- The numbers of a level were read from the first three values of its entry. -/
structure WholeLevel (entry : Json) (level : Double × Double × UInt64) : Prop where
  /-- The price. -/
  price : WholeText format (Json.element 0 (some entry)) (some level.1)
  /-- The size. -/
  size : WholeText format (Json.element 1 (some entry)) (some level.2.1)
  /-- The number of orders. -/
  count : WholeCount (Json.element 2 (some entry)) level.2.2

/-- The value is present and a numeral as a whole. -/
def IsNumeral (field : Option Json) : Prop :=
  ∃ text value, field = some (.string text) ∧ Numeral.Derives text.toList value

/-- An entry with a price, a size and a number of orders, all of them whole. -/
structure CompleteEntry (entry : Json) : Prop where
  /-- The price. -/
  price : IsNumeral (Json.element 0 (some entry))
  /-- The size. -/
  size : IsNumeral (Json.element 1 (some entry))
  /-- The number of orders is not negative. -/
  count : ∃ count : ℕ, getInt64 (Json.element 2 (some entry)) = some (count : ℤ)

/-- A value which converts, if it is present. -/
def Converts (field : Option Json) : Prop :=
  ∀ value, field = some value → ∃ text, value = .string text ∧ stod format text ≠ none

/-- An array of values which convert as far as they are present. -/
structure AcceptedEntry (entry : Json) : Prop where
  /-- The entry is an array. -/
  array : ∃ values, entry = .array values
  /-- The price. -/
  price : Converts format (Json.element 0 (some entry))
  /-- The size. -/
  size : Converts format (Json.element 1 (some entry))
  /-- The number of orders. -/
  count : ∀ value, Json.element 2 (some entry) = some value → getInt64 (some value) ≠ none

/-! ## Conversions -/

theorem stod_empty : stod format "" = none := by
  have nothing : (Numeral.strtod "".toList).2 = "".toList := rfl
  rw [stod, if_pos (Or.inl nothing)]

variable {format}

theorem stod_eq_of_derives {text : String} {value : Numeral.Number} {number : Double}
    (derived : Numeral.Derives text.toList value) (read : stod format text = some number) :
    number = format.round value := by
  rw [stod, Numeral.strtod_complete derived] at read
  dsimp only at read
  split at read
  · cases read
  · exact (Option.some_inj.mp read).symm

/-- A text in a ticker is converted as a whole exactly if it is a numeral. -/
theorem wholeText_stringViewToDouble_iff {field : Option Json} {text : String}
    (present : field = some (.string text)) :
    WholeText format field (stringViewToDouble format text none).2 ↔ IsNumeral field := by
  constructor
  · rintro ⟨read, value, found, derived, -⟩
    exact ⟨read, value, found, derived⟩
  · rintro ⟨read, value, found, derived⟩
    obtain rfl : text = read := by simpa [present] using found
    have some_text : text ≠ "" := by
      rintro rfl
      exact derived.ne_nil rfl
    refine ⟨text, value, present, derived, ?_⟩
    rw [stringViewToDouble, if_neg some_text, Numeral.strtod_complete derived]

/-- A literal which is read as an integer consists of a sign and digits. -/
theorem integer_sound {literal : List Char} {value : ℤ} (read : integer literal = some value) :
    Numeral.Derives literal (.finite value) ∧ value < 2 ^ 63 := by
  rw [integer, Option.ite_none_right_eq_some, Option.some_inj] at read
  obtain ⟨⟨some_digit, all, -, -, below⟩, rfl⟩ := read
  refine ⟨?_, below⟩
  by_cases negative : literal.head? = some '-'
  · obtain ⟨digits, rfl⟩ := List.head?_eq_some_iff.mp negative
    simp only [List.head?_cons, decide_true, if_true, List.tail_cons] at some_digit all ⊢
    have numeral := Numeral.Decimal.of_signed_digits .minus all some_digit
    simpa [Numeral.applySign] using numeral.derives
  · simp only [negative, decide_false, Bool.false_eq_true, if_false] at some_digit all ⊢
    have numeral := Numeral.Decimal.of_signed_digits .none all some_digit
    simpa [Numeral.applySign] using numeral.derives

theorem getInt64_eq_some_iff {field : Option Json} {value : ℤ} :
    getInt64 field = some value ↔
      ∃ literal, field = some (.number literal) ∧ integer literal.toList = some value := by
  unfold getInt64
  split <;> simp_all

/-- The number of orders is read as a whole exactly if it is not negative. -/
theorem wholeCount_ofInt_iff {field : Option Json} {value : ℤ}
    (read : getInt64 field = some value) :
    WholeCount field (UInt64.ofInt value) ↔ ∃ count : ℕ, getInt64 field = some (count : ℤ) := by
  obtain ⟨literal, present, denoted⟩ := getInt64_eq_some_iff.mp read
  obtain ⟨derived, below⟩ := integer_sound denoted
  constructor
  · rintro ⟨again, found, whole⟩
    obtain rfl : literal = again := by simpa [present] using found
    have same := Numeral.Number.finite.inj (derived.unique whole)
    refine ⟨(UInt64.ofInt value).toNat, ?_⟩
    rw [read, Option.some_inj]
    exact_mod_cast same
  · rintro ⟨count, found⟩
    obtain rfl : value = count := by simpa [read] using found
    have kept : (UInt64.ofInt (count : ℤ)).toNat = count := by
      rw [UInt64.ofInt, UInt64.toNat_ofNat']
      omega
    exact ⟨literal, present, by rw [kept]; exact_mod_cast derived⟩

/-! ## Entries -/

variable (format)

/-- What an entry contributes at the place of a price or a size. -/
def numberAt : Option Json → Option Double
  | none => some (format.round (.finite 0))
  | some value => stod format ((Json.text (some value)).getD "")

/-- What an entry contributes at the place of the number of orders. -/
def countAt : Option Json → Option UInt64
  | none => some 0
  | some value => (getInt64 (some value)).map UInt64.ofInt

theorem readValue_later (values : List (Option Json)) (level : Double × Double × UInt64)
    {start : ℕ} (later : 3 ≤ start) :
    (values.zipIdx start).foldlM
      (fun level value => readValue format level value.1 value.2) level = some level := by
  induction values generalizing start with
  | nil => rfl
  | cons value values induction =>
      obtain ⟨index, rfl⟩ := Nat.exists_eq_add_of_le' later
      rw [List.zipIdx_cons, List.foldlM_cons]
      exact induction (by omega)

/-- The first three values of an entry are read, and zero where there is none. -/
theorem parseLevel_array (values : List Json) :
    parseLevel format (some (.array values)) =
      (numberAt format values[0]?).bind fun price =>
        (numberAt format values[1]?).bind fun size =>
          (countAt values[2]?).map fun count => (price, size, count) := by
  rw [parseLevel, Json.elements]
  rcases values with _ | ⟨price, _ | ⟨size, _ | ⟨count, rest⟩⟩⟩
  · rfl
  · simp only [List.map_cons, List.zipIdx_cons, List.foldlM_cons, readValue, numberAt, countAt,
      List.getElem?_cons_zero, List.getElem?_cons_succ]
    cases stod format ((Json.text (some price)).getD "") <;> rfl
  · simp only [List.map_cons, List.zipIdx_cons, List.foldlM_cons, readValue, numberAt, countAt,
      List.getElem?_cons_zero, List.getElem?_cons_succ]
    cases stod format ((Json.text (some price)).getD "") <;>
      cases stod format ((Json.text (some size)).getD "") <;> rfl
  · have later := fun level => readValue_later format (rest.map some) level (le_refl 3)
    simp only [List.map_cons, List.zipIdx_cons, List.foldlM_cons, Nat.reduceAdd, later]
    simp only [readValue, numberAt, countAt, List.getElem?_cons_zero, List.getElem?_cons_succ]
    cases stod format ((Json.text (some price)).getD "") <;>
      cases stod format ((Json.text (some size)).getD "") <;>
        cases getInt64 (some count) <;> rfl

theorem parseLevel_of_ne_array {entry : Json} (no_array : ∀ values, entry ≠ .array values) :
    parseLevel format (some entry) = none := by
  have no_elements : Json.elements (some entry) = [none] := by
    cases entry with
    | array values => exact absurd rfl (no_array values)
    | _ => rfl
  have no_text : (Json.text none).getD "" = "" := rfl
  rw [parseLevel, no_elements]
  simp [readValue, no_text, stod_empty]

variable {format}

theorem numberAt_ne_none_iff {field : Option Json} :
    numberAt format field ≠ none ↔ Converts format field := by
  cases field with
  | none => simp [numberAt, Converts]
  | some value =>
      cases value with
      | string text => simp [numberAt, Converts, Json.text]
      | _ => simp [numberAt, Converts, Json.text, stod_empty]

/-- A number of an entry is read as a whole exactly if its text is a numeral. -/
theorem wholeText_numberAt_iff {field : Option Json} {number : Double}
    (read : numberAt format field = some number) :
    WholeText format field (some number) ↔ IsNumeral field := by
  constructor
  · rintro ⟨text, value, present, derived, -⟩
    exact ⟨text, value, present, derived⟩
  · rintro ⟨text, value, rfl, derived⟩
    rw [stod_eq_of_derives derived read]
    exact ⟨text, value, rfl, derived, rfl⟩

theorem countAt_ne_none_iff {field : Option Json} :
    countAt field ≠ none ↔ ∀ value, field = some value → getInt64 (some value) ≠ none := by
  cases field with
  | none => simp [countAt]
  | some value => simp [countAt]

theorem wholeCount_countAt_iff {field : Option Json} {count : UInt64}
    (read : countAt field = some count) :
    WholeCount field count ↔ ∃ number : ℕ, getInt64 field = some (number : ℤ) := by
  cases field with
  | none => simp [WholeCount, getInt64]
  | some value =>
      obtain ⟨number, found, rfl⟩ := Option.map_eq_some_iff.mp read
      exact wholeCount_ofInt_iff found

/-- The parser returns a level for the accepted entries. -/
theorem parseLevel_ne_none_iff {entry : Json} :
    parseLevel format (some entry) ≠ none ↔ AcceptedEntry format entry := by
  by_cases array : ∃ values, entry = .array values
  · obtain ⟨values, rfl⟩ := array
    constructor
    · intro read
      obtain ⟨level, found⟩ := Option.ne_none_iff_exists'.mp read
      rw [parseLevel_array] at found
      obtain ⟨price, at_price, rest⟩ := Option.bind_eq_some_iff.mp found
      obtain ⟨size, at_size, rest⟩ := Option.bind_eq_some_iff.mp rest
      obtain ⟨count, at_count, -⟩ := Option.map_eq_some_iff.mp rest
      exact ⟨⟨values, rfl⟩,
        numberAt_ne_none_iff.mp (Option.ne_none_iff_exists'.mpr ⟨price, at_price⟩),
        numberAt_ne_none_iff.mp (Option.ne_none_iff_exists'.mpr ⟨size, at_size⟩),
        countAt_ne_none_iff.mp (Option.ne_none_iff_exists'.mpr ⟨count, at_count⟩)⟩
    · rintro ⟨-, price, size, count⟩
      obtain ⟨price, at_price⟩ :=
        Option.ne_none_iff_exists'.mp (numberAt_ne_none_iff.mpr price)
      obtain ⟨size, at_size⟩ := Option.ne_none_iff_exists'.mp (numberAt_ne_none_iff.mpr size)
      obtain ⟨count, at_count⟩ := Option.ne_none_iff_exists'.mp (countAt_ne_none_iff.mpr count)
      simp only [Json.element] at at_price at_size at_count
      simp [parseLevel_array, at_price, at_size, at_count]
  · rw [parseLevel_of_ne_array format (not_exists.mp array)]
    exact iff_of_false (fun read => read rfl) fun accepted => array accepted.array

/-- A level is read as a whole exactly if its entry is complete. -/
theorem wholeLevel_iff {entry : Json} {level : Double × Double × UInt64}
    (read : parseLevel format (some entry) = some level) :
    WholeLevel format entry level ↔ CompleteEntry entry := by
  obtain ⟨values, rfl⟩ :=
    (parseLevel_ne_none_iff.mp (Option.ne_none_iff_exists'.mpr ⟨level, read⟩)).array
  rw [parseLevel_array] at read
  obtain ⟨price, at_price, rest⟩ := Option.bind_eq_some_iff.mp read
  obtain ⟨size, at_size, rest⟩ := Option.bind_eq_some_iff.mp rest
  obtain ⟨count, at_count, rfl⟩ := Option.map_eq_some_iff.mp rest
  constructor
  · rintro ⟨whole_price, whole_size, whole_count⟩
    exact ⟨(wholeText_numberAt_iff at_price).mp whole_price,
      (wholeText_numberAt_iff at_size).mp whole_size,
      (wholeCount_countAt_iff at_count).mp whole_count⟩
  · rintro ⟨numeral_price, numeral_size, counted⟩
    exact ⟨(wholeText_numberAt_iff at_price).mpr numeral_price,
      (wholeText_numberAt_iff at_size).mpr numeral_size,
      (wholeCount_countAt_iff at_count).mpr counted⟩

/-! ## Sides -/

/-- The parser reads the first entries of a side in order. -/
theorem parseEntries_eq_some_iff (maxLevels : ℤ) (count : ℕ) (entries : List Json)
    (levels : List (Double × Double × UInt64)) :
    parseEntries format maxLevels count entries = some levels ↔
      List.Forall₂ (fun entry level => parseLevel format (some entry) = some level)
        (entries.take (maxLevels - count).toNat) levels := by
  induction entries generalizing count levels with
  | nil => simp [parseEntries, eq_comm]
  | cons entry entries induction =>
      rw [parseEntries]
      split <;> rename_i reached
      · have none_left : (maxLevels - count).toNat = 0 := by omega
        simp [none_left, eq_comm]
      · have one_more : (maxLevels - count).toNat = (maxLevels - (count + 1 : ℕ)).toNat + 1 := by
          omega
        rw [one_more, List.take_succ_cons, List.forall₂_cons_left_iff]
        simp only [Option.bind_eq_bind, Option.bind_eq_some_iff, Option.pure_def,
          Option.some.injEq]
        constructor
        · rintro ⟨level, first, rest, others, rfl⟩
          exact ⟨level, rest, first, (induction (count + 1) rest).mp others, rfl⟩
        · rintro ⟨level, rest, first, others, rfl⟩
          exact ⟨level, first, rest, (induction (count + 1) rest).mpr others, rfl⟩

theorem parseLevels_eq_some_iff {input : Option Json} {maxLevels : ℤ}
    {levels : List (Double × Double × UInt64)} :
    parseLevels format input maxLevels = some levels ↔
      ∃ entries, input = some (.array entries) ∧
        List.Forall₂ (fun entry level => parseLevel format (some entry) = some level)
          (entries.take maxLevels.toNat) levels := by
  unfold parseLevels
  split
  · rename_i entries
    have first : parseEntries format maxLevels 0 entries = some levels ↔ _ :=
      parseEntries_eq_some_iff maxLevels 0 entries levels
    simpa using first
  · rename_i no_array
    refine iff_of_false nofun ?_
    rintro ⟨entries, present, -⟩
    exact no_array entries present

section Lists

variable {α β : Type*} {related whole : α → β → Prop} {complete : α → Prop}

theorem exists_forall₂_iff {items : List α} :
    (∃ outcomes, List.Forall₂ related items outcomes) ↔
      ∀ item ∈ items, ∃ outcome, related item outcome := by
  induction items with
  | nil => simp
  | cons item items induction =>
      simp only [List.forall₂_cons_left_iff, List.forall_mem_cons, ← induction]
      constructor
      · rintro ⟨_, outcome, outcomes, first, rest, rfl⟩
        exact ⟨⟨outcome, first⟩, outcomes, rest⟩
      · rintro ⟨⟨outcome, first⟩, outcomes, rest⟩
        exact ⟨outcome :: outcomes, outcome, outcomes, first, rest, rfl⟩

theorem forall₂_iff_of_forall₂ {items : List α} {outcomes : List β}
    (each : List.Forall₂ related items outcomes)
    (same : ∀ item outcome, related item outcome → (whole item outcome ↔ complete item)) :
    List.Forall₂ whole items outcomes ↔ ∀ item ∈ items, complete item := by
  induction each with
  | nil => simp
  | cons first rest induction => simp [same _ _ first, induction]

end Lists

/-! ## Results -/

/-- The numbers of a quote were read from the body as a whole. -/
def WholeBBO (format : DoubleFormat Double) (doc : Option Json) (output : BBO Double) : Prop :=
  WholeText format (Json.field "bid" doc) output.bid ∧
    WholeText format (Json.field "ask" doc) output.ask

/-- The numbers of a trade were read from the body as a whole. -/
def WholeTrade (format : DoubleFormat Double) (doc : Option Json) (output : LatestTrade Double) :
    Prop :=
  WholeText format (Json.field "price" doc) output.price ∧
    WholeText format (Json.field "size" doc) output.size

/-- The levels of a side were read from its first entries as a whole, in order. -/
def WholeSide (format : DoubleFormat Double) (side : Option Json) (maxLevels : ℤ)
    (levels : List (Double × Double × UInt64)) : Prop :=
  ∃ entries, side = some (.array entries) ∧
    List.Forall₂ (WholeLevel format) (entries.take maxLevels.toNat) levels

/-- The levels of an order book were read from the body as a whole. -/
def WholeOrderbook (format : DoubleFormat Double) (doc : Option Json) (maxLevels : ℤ)
    (output : OrderbookState Double) : Prop :=
  WholeSide format (Json.field "bids" doc) maxLevels output.bids ∧
    WholeSide format (Json.field "asks" doc) maxLevels output.asks

/-- If both fields are texts, both are numerals. -/
def NumeralsIfTexts (first second : String) (doc : Option Json) : Prop :=
  ∀ firstText secondText, Json.field first doc = some (.string firstText) →
    Json.field second doc = some (.string secondText) →
      IsNumeral (Json.field first doc) ∧ IsNumeral (Json.field second doc)

/-- If both sides are arrays whose first entries are all accepted, these are all complete. -/
def CompleteIfAccepted (format : DoubleFormat Double) (maxLevels : ℤ) (doc : Option Json) : Prop :=
  ∀ bids asks, Json.field "bids" doc = some (.array bids) →
    Json.field "asks" doc = some (.array asks) →
      (∀ entry ∈ bids.take maxLevels.toNat ++ asks.take maxLevels.toNat,
        AcceptedEntry format entry) →
        ∀ entry ∈ bids.take maxLevels.toNat ++ asks.take maxLevels.toNat, CompleteEntry entry

variable (returnRequest : String → Option (Option Json))

theorem returnTicker_eq_some_iff {first second ticker : String}
    {numbers : Option Double × Option Double} :
    returnTicker format returnRequest first second ticker = some numbers ↔
      ∃ firstText secondText,
        Json.field first (returnRequest (tickerUrl ticker)).join = some (.string firstText) ∧
        Json.field second (returnRequest (tickerUrl ticker)).join = some (.string secondText) ∧
        ((stringViewToDouble format firstText none).2,
          (stringViewToDouble format secondText none).2) = numbers := by
  rw [returnTicker]
  cases returnRequest (tickerUrl ticker) with
  | none => simp [Json.field]
  | some doc =>
      simp only [Option.bind_eq_bind, Option.bind_some, Option.bind_eq_some_iff,
        Json.text_eq_some_iff, Option.pure_def, Option.some.injEq, Option.join_some]
      constructor
      · rintro ⟨firstText, at_first, secondText, at_second, same⟩
        exact ⟨firstText, secondText, at_first, at_second, same⟩
      · rintro ⟨firstText, secondText, at_first, at_second, same⟩
        exact ⟨firstText, at_first, secondText, at_second, same⟩

/-- The numbers of the ticker are whole exactly if its texts are numerals. -/
theorem returnTicker_whole_iff (format : DoubleFormat Double) (first second ticker : String) :
    (∀ numbers, returnTicker format returnRequest first second ticker = some numbers →
        WholeText format (Json.field first (returnRequest (tickerUrl ticker)).join) numbers.1 ∧
          WholeText format (Json.field second (returnRequest (tickerUrl ticker)).join)
            numbers.2) ↔
      NumeralsIfTexts first second (returnRequest (tickerUrl ticker)).join := by
  simp only [returnTicker_eq_some_iff]
  constructor
  · intro whole firstText secondText at_first at_second
    have both := whole _ ⟨firstText, secondText, at_first, at_second, rfl⟩
    rwa [wholeText_stringViewToDouble_iff at_first,
      wholeText_stringViewToDouble_iff at_second] at both
  · rintro numerals _ ⟨firstText, secondText, at_first, at_second, rfl⟩
    rw [wholeText_stringViewToDouble_iff at_first, wholeText_stringViewToDouble_iff at_second]
    exact numerals firstText secondText at_first at_second

theorem returnCurrentOrderbook_eq_some_iff {ticker : String} {maxLevels : ℤ}
    {output : OrderbookState Double} :
    returnCurrentOrderbook format returnRequest ticker maxLevels = some output ↔
      parseLevels format (Json.field "bids" (returnRequest (bookUrl ticker)).join) maxLevels =
          some output.bids ∧
        parseLevels format (Json.field "asks" (returnRequest (bookUrl ticker)).join) maxLevels =
          some output.asks := by
  obtain ⟨bids, asks⟩ := output
  rw [returnCurrentOrderbook]
  cases returnRequest (bookUrl ticker) with
  | none => simp [Json.field, parseLevels]
  | some doc =>
      simp only [Option.bind_eq_bind, Option.bind_some, Option.bind_eq_some_iff,
        Option.pure_def, Option.some.injEq, Option.join_some, OrderbookState.mk.injEq]
      constructor
      · rintro ⟨_, read_bids, _, read_asks, rfl, rfl⟩
        exact ⟨read_bids, read_asks⟩
      · rintro ⟨read_bids, read_asks⟩
        exact ⟨bids, read_bids, asks, read_asks, rfl, rfl⟩

/-- The parser returns levels for the first entries of a side exactly if it accepts each. -/
theorem exists_parseLevels_iff {entries : List Json} {maxLevels : ℤ} :
    (∃ levels, parseLevels format (some (.array entries)) maxLevels = some levels) ↔
      ∀ entry ∈ entries.take maxLevels.toNat, AcceptedEntry format entry := by
  simp only [parseLevels_eq_some_iff, Option.some.injEq, Json.array.injEq, exists_eq_left',
    exists_forall₂_iff, ← parseLevel_ne_none_iff, Option.ne_none_iff_exists']

/-- The levels of a side are whole exactly if its first entries are complete. -/
theorem wholeSide_iff {side : Option Json} {entries : List Json} {maxLevels : ℤ}
    {levels : List (Double × Double × UInt64)} (listed : side = some (.array entries))
    (read : parseLevels format side maxLevels = some levels) :
    WholeSide format side maxLevels levels ↔
      ∀ entry ∈ entries.take maxLevels.toNat, CompleteEntry entry := by
  subst listed
  obtain ⟨_, ⟨⟩, each⟩ := parseLevels_eq_some_iff.mp read
  rw [← forall₂_iff_of_forall₂ each fun _ _ => wholeLevel_iff]
  simp [WholeSide]

/-- The levels of the order book are whole exactly if accepted entries are complete. -/
theorem returnCurrentOrderbook_whole_iff (ticker : String) (maxLevels : ℤ) :
    (∀ output, returnCurrentOrderbook format returnRequest ticker maxLevels = some output →
        WholeOrderbook format (returnRequest (bookUrl ticker)).join maxLevels output) ↔
      CompleteIfAccepted format maxLevels (returnRequest (bookUrl ticker)).join := by
  simp only [returnCurrentOrderbook_eq_some_iff, CompleteIfAccepted, List.forall_mem_append]
  generalize (returnRequest (bookUrl ticker)).join = doc
  constructor
  · rintro whole bids asks at_bids at_asks ⟨accepted_bids, accepted_asks⟩
    obtain ⟨bid_levels, read_bids⟩ := exists_parseLevels_iff.mpr accepted_bids
    obtain ⟨ask_levels, read_asks⟩ := exists_parseLevels_iff.mpr accepted_asks
    rw [← at_bids] at read_bids
    rw [← at_asks] at read_asks
    obtain ⟨whole_bids, whole_asks⟩ :=
      whole { bids := bid_levels, asks := ask_levels } ⟨read_bids, read_asks⟩
    exact ⟨(wholeSide_iff at_bids read_bids).mp whole_bids,
      (wholeSide_iff at_asks read_asks).mp whole_asks⟩
  · rintro complete output ⟨read_bids, read_asks⟩
    obtain ⟨bids, at_bids, -⟩ := parseLevels_eq_some_iff.mp read_bids
    obtain ⟨asks, at_asks, -⟩ := parseLevels_eq_some_iff.mp read_asks
    have accepted_bids := exists_parseLevels_iff.mp ⟨_, at_bids ▸ read_bids⟩
    have accepted_asks := exists_parseLevels_iff.mp ⟨_, at_asks ▸ read_asks⟩
    obtain ⟨complete_bids, complete_asks⟩ :=
      complete bids asks at_bids at_asks ⟨accepted_bids, accepted_asks⟩
    exact ⟨(wholeSide_iff at_bids read_bids).mpr complete_bids,
      (wholeSide_iff at_asks read_asks).mpr complete_asks⟩

/-- For every response, quotes, trades and order books hold whole numbers only exactly if the texts
of the ticker are numerals whenever both are there, and the first entries of the book are complete
whenever all are accepted. -/
theorem results_whole_iff (format : DoubleFormat Double) (ticker : String) (maxLevels : ℤ) :
    ((∀ output, returnBBO format returnRequest ticker = some output →
        WholeBBO format (returnRequest (tickerUrl ticker)).join output) ↔
      NumeralsIfTexts "ask" "bid" (returnRequest (tickerUrl ticker)).join) ∧
    ((∀ output, returnLastTrade format returnRequest ticker = some output →
        WholeTrade format (returnRequest (tickerUrl ticker)).join output) ↔
      NumeralsIfTexts "price" "size" (returnRequest (tickerUrl ticker)).join) ∧
    ((∀ output, returnCurrentOrderbook format returnRequest ticker maxLevels = some output →
        WholeOrderbook format (returnRequest (bookUrl ticker)).join maxLevels output) ↔
      CompleteIfAccepted format maxLevels (returnRequest (bookUrl ticker)).join) := by
  refine ⟨?_, ?_, returnCurrentOrderbook_whole_iff returnRequest ticker maxLevels⟩
  · rw [← returnTicker_whole_iff returnRequest format]
    simp only [returnBBO, Option.map_eq_some_iff, WholeBBO]
    constructor
    · intro whole numbers read
      exact (whole _ ⟨numbers, read, rfl⟩).symm
    · rintro whole _ ⟨numbers, read, rfl⟩
      exact (whole numbers read).symm
  · rw [← returnTicker_whole_iff returnRequest format]
    simp only [returnLastTrade, Option.map_eq_some_iff, WholeTrade]
    constructor
    · intro whole numbers read
      exact whole _ ⟨numbers, read, rfl⟩
    · rintro whole _ ⟨numbers, read, rfl⟩
      exact whole numbers read

/-- Numbers which are not rounded. -/
def exactFormat : DoubleFormat Numeral.Number where
  round := id
  outOfRange _ := false

/-- A ticker whose best bid is an empty text. -/
def emptyBidTicker : Json := .object [("ask", .string "2"), ("bid", .string "")]

/-- The quote of an empty best bid is returned with a number which was never initialized. -/
theorem emptyBidTicker_uninitialized :
    returnBBO exactFormat (fun _ => some (some emptyBidTicker)) "btc-usd" =
        some { bid := none, ask := some (.finite 2) } ∧
      ¬ WholeBBO exactFormat (some emptyBidTicker) { bid := none, ask := some (.finite 2) } := by
  have at_ask : Json.field "ask" (some emptyBidTicker) = some (.string "2") := by
    simp [Json.field, emptyBidTicker]
  have at_bid : Json.field "bid" (some emptyBidTicker) = some (.string "") := by
    simp [Json.field, emptyBidTicker, List.lookup_cons]
  have two : (stringViewToDouble exactFormat "2" none).2 = some (.finite 2) := by
    decide +kernel
  have empty : (stringViewToDouble exactFormat "" none).2 = none := rfl
  constructor
  · rw [returnBBO, Option.map_eq_some_iff]
    refine ⟨(some (.finite 2), none), ?_, rfl⟩
    rw [returnTicker_eq_some_iff]
    exact ⟨"2", "", at_ask, at_bid, by rw [two, empty]⟩
  · rintro ⟨⟨text, value, -, -, uninitialized⟩, -⟩
    cases uninitialized

end Coinbase

end CryptoInfra
