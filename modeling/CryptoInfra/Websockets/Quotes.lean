import CryptoInfra.Websockets.Basic

/-!
# What well-formed messages say

A well-formed message quotes, for each side, prices of its exchange with quantities. This file says
which documents carry which quotes, in terms of the documents alone, and shows that the handlers
read exactly these quotes, each side in its order.
-/

namespace CryptoInfra

open Numeral (Decimal Number)

/-- The prices and quantities quoted on each side, in order. -/
abbrev Quotes := Side → List (ℚ × Volume)

/-- The quotes on one side. -/
def onSide (side : Side) (quotes : List (Side × ℚ × Volume)) : List (ℚ × Volume) :=
  quotes.filterMap fun quote => if quote.1 = side then some quote.2 else none

/-! ## Well-formed documents -/

namespace CoinbaseWs

/-- An entry which quotes a price on one side. -/
inductive Entry : Json → Side × ℚ × Volume → Prop where
  | quote {entry : Json} {sideText eventTime priceText quantityText : String} {side : Side}
      {price : ℚ} {quantity : Volume}
      (has_side : Json.field "side" (some entry) = some (.string sideText))
      (named : sideText = "bid" ∧ side = .bid ∨ sideText = "offer" ∧ side = .ask)
      (has_time : Json.field "event_time" (some entry) = some (.string eventTime))
      (has_price : Json.field "price_level" (some entry) = some (.string priceText))
      (price_decimal : Decimal priceText.toList price)
      (has_quantity : Json.field "new_quantity" (some entry) = some (.string quantityText))
      (quantity_decimal : Decimal quantityText.toList quantity) :
      Entry entry (side, price, quantity)

/-- An event with the quotes of its entries, or of another type, without quotes. -/
inductive Event : Json → List (Side × ℚ × Volume) → Prop where
  | book {event : Json} {type : String} {entries : List Json}
      {quotes : List (Side × ℚ × Volume)}
      (typed : Json.field "type" (some event) = some (.string type))
      (named : type = "snapshot" ∨ type = "update")
      (listed : Json.field "updates" (some event) = some (.array entries))
      (each : List.Forall₂ Entry entries quotes) : Event event quotes
  | other {event : Json}
      (unnamed : ∀ type, Json.field "type" (some event) = some (.string type) →
        type ≠ "snapshot" ∧ type ≠ "update") : Event event []

end CoinbaseWs

namespace CryptoWs

/-- An entry which quotes a price. -/
inductive Entry : Json → ℚ × Volume → Prop where
  | quote {priceText quantityText : String} {rest : List Json} {price : ℚ} {quantity : Volume}
      (price_decimal : Decimal priceText.toList price)
      (quantity_decimal : Decimal quantityText.toList quantity) :
      Entry (.array (.string priceText :: .string quantityText :: rest)) (price, quantity)

/-- A book with the quotes of both sides. -/
inductive Book : Option Json → Quotes → Prop where
  | sides {book : Option Json} {asks bids : List Json} {quotes : Quotes}
      (has_asks : Json.field "asks" book = some (.array asks))
      (each_ask : List.Forall₂ Entry asks (quotes .ask))
      (has_bids : Json.field "bids" book = some (.array bids))
      (each_bid : List.Forall₂ Entry bids (quotes .bid)) : Book book quotes

/-- A data element of a channel: a book, or the update of one. -/
inductive Data (channel : String) : Json → Quotes → Prop where
  | book {data : Json} {quotes : Quotes} (whole : channel = "book")
      (sides : Book (some data) quotes) : Data channel data quotes
  | update {data : Json} {quotes : Quotes} (change : channel = "book.update")
      (sides : Book (Json.field "update" (some data)) quotes) : Data channel data quotes

end CryptoWs

/-- A message with the quotes it carries. -/
inductive Carries : Feed → Option Json → Quotes → Prop where
  | events {message : Option Json} {events : List Json} {quotes : List (List (Side × ℚ × Volume))}
      (listed : Json.field "events" message = some (.array events))
      (each : List.Forall₂ CoinbaseWs.Event events quotes) :
      Carries .coinbase message fun side => onSide side quotes.flatten
  | data {message : Option Json} {channel : String} {data : List Json} {quotes : List Quotes}
      (on_channel : Json.field "channel" (Json.field "result" message) = some (.string channel))
      (listed : Json.field "data" (Json.field "result" message) = some (.array data))
      (named : channel = "book" ∨ channel = "book.update")
      (each : List.Forall₂ (CryptoWs.Data channel) data quotes) :
      Carries .crypto message fun side => quotes.flatMap fun quoted => quoted side
  | other {message : Option Json}
      (unnamed : ∀ channel, Json.field "channel" (Json.field "result" message) =
        some (.string channel) → channel ≠ "book" ∧ channel ≠ "book.update") :
      Carries .crypto message fun _ => []

/-! ## What the handlers read -/

/-- The update for a quote. -/
def updateOfQuote (quote : Side × ℚ × Volume) : Side × Number × Number :=
  (quote.1, .finite quote.2.1, .finite quote.2.2)

theorem convertToDouble_eq_some_iff {text : String} {number : Number} :
    convertToDouble text = some number ↔
      (text = "" ∧ number = .finite 0) ∨ Numeral.Derives text.toList number := by
  rw [← String.toList_eq_nil_iff, ← Numeral.strtod_eq_iff, convertToDouble]
  split <;> rename_i whole
  · rw [Option.some.injEq, Prod.ext_iff]
    simp [whole]
  · constructor
    · exact nofun
    · intro scanned
      exact absurd (congrArg Prod.snd scanned) whole

theorem convertToDouble_of_decimal {text : String} {value : ℚ}
    (decimal : Decimal text.toList value) : convertToDouble text = some (.finite value) :=
  convertToDouble_eq_some_iff.mpr (Or.inr decimal.derives)

namespace CoinbaseWs

theorem readUpdate_of_entry {entry : Json} {quote : Side × ℚ × Volume}
    (quoted : Entry entry quote) :
    ((readUpdate (some entry)).map fun update => (sideOf update.1, update.2)) =
      some (updateOfQuote quote) := by
  cases quoted with
  | quote has_side named has_time has_price price_decimal has_quantity quantity_decimal =>
      have price := convertToDouble_of_decimal price_decimal
      have quantity := convertToDouble_of_decimal quantity_decimal
      rcases named with ⟨rfl, rfl⟩ | ⟨rfl, rfl⟩ <;>
        simp [readUpdate, has_side, has_time, has_price, has_quantity, Json.text, price, quantity,
          sideOf, updateOfQuote]

theorem isBookEvent_iff {event : Option Json} :
    isBookEvent event = true ↔
      ∃ type, Json.text (Json.field "type" event) = some type ∧
        (type = "update" ∨ type = "snapshot") := by
  unfold isBookEvent
  split <;> rename_i found <;> simp [found]

theorem readEvent_of_event {event : Json} {quotes : List (Side × ℚ × Volume)}
    (carried : Event event quotes) :
    ((readEvent (some event)).map fun update => (sideOf update.1, update.2)) =
      quotes.map updateOfQuote := by
  cases carried with
  | book typed named listed each =>
      have book_event : isBookEvent (some event) = true :=
        isBookEvent_iff.mpr ⟨_, Json.text_eq_some_iff.mpr typed, named.symm⟩
      rw [readEvent, if_pos book_event, listed, Json.elements, List.filterMap_map,
        List.map_filterMap]
      exact Json.filterMap_of_forall₂ each fun _ _ => readUpdate_of_entry
  | other unnamed =>
      have other_event : ¬ isBookEvent (some event) = true := by
        rw [isBookEvent_iff]
        rintro ⟨type, typed, named⟩
        obtain ⟨no_snapshot, no_update⟩ := unnamed type (Json.text_eq_some_iff.mp typed)
        exact named.elim no_update no_snapshot
      rw [readEvent, if_neg other_event]
      rfl

end CoinbaseWs

namespace CryptoWs

theorem read_later (texts : OrderTexts) (values : List (Option Json)) {start : ℕ}
    (later : 2 ≤ start) :
    let final := (values.zipIdx start).foldl (fun texts value => texts.read value.1 value.2) texts
    final.priceLevelStr = texts.priceLevelStr ∧ final.newQuantityStr = texts.newQuantityStr := by
  induction values generalizing texts start with
  | nil => exact ⟨rfl, rfl⟩
  | cons value values induction =>
      obtain ⟨price, quantity⟩ :=
        induction (texts.read value start) (later.trans start.le_succ)
      rw [List.zipIdx_cons, List.foldl_cons]
      match start, later with
      | 2, _ => exact ⟨price, quantity⟩
      | _ + 3, _ => exact ⟨price, quantity⟩

/-- The texts of an entry are its first two strings; a missing one counts as the empty text. -/
theorem readTexts_eq (order : Option Json) :
    (readTexts order).priceLevelStr = (Json.text (Json.element 0 order)).getD "" ∧
      (readTexts order).newQuantityStr = (Json.text (Json.element 1 order)).getD "" := by
  unfold readTexts Json.elements Json.element
  split
  · rename_i values
    match values with
    | [] => exact ⟨rfl, rfl⟩
    | [price] => exact ⟨rfl, rfl⟩
    | price :: quantity :: rest =>
        exact read_later _ (rest.map some) le_rfl
  · exact ⟨rfl, rfl⟩

/-- The update of an entry is read from its first two values. -/
theorem readOrder_eq (isBid : Bool) (order : Option Json) :
    readOrder isBid order =
      (convertToDouble ((Json.text (Json.element 0 order)).getD "")).bind fun price =>
        (convertToDouble ((Json.text (Json.element 1 order)).getD "")).bind fun volume =>
          some (isBid, price, volume) := by
  obtain ⟨price, quantity⟩ := readTexts_eq order
  rw [readOrder, ← price, ← quantity]
  rfl

theorem readOrder_of_entry {entry : Json} {quote : ℚ × Volume} (quoted : Entry entry quote)
    (isBid : Bool) :
    readOrder isBid (some entry) = some (isBid, .finite quote.1, .finite quote.2) := by
  cases quoted with
  | quote price_decimal quantity_decimal =>
      have price := convertToDouble_of_decimal price_decimal
      have quantity := convertToDouble_of_decimal quantity_decimal
      simp [readOrder_eq, Json.element, Json.text, price, quantity]

/-- The updates of a book are the quotes of both sides. -/
def updatesOfQuotes (quotes : Quotes) : List (Side × ℚ × Volume) :=
  (quotes .ask).map (fun quote => (.ask, quote)) ++ (quotes .bid).map fun quote => (.bid, quote)

theorem onSide_updatesOfQuotes (quotes : Quotes) (side : Side) :
    onSide side (updatesOfQuotes quotes) = quotes side := by
  cases side <;> simp [onSide, updatesOfQuotes, List.filterMap_map]

theorem processBook_of_book {book : Option Json} {quotes : Quotes} (quoted : Book book quotes) :
    ((processBook book).map fun update => (sideOf update.1, update.2)) =
      (updatesOfQuotes quotes).map updateOfQuote := by
  cases quoted with
  | sides has_asks each_ask has_bids each_bid =>
      have asks := Json.filterMap_of_forall₂ each_ask fun _ _ quoted =>
        readOrder_of_entry quoted false
      have bids := Json.filterMap_of_forall₂ each_bid fun _ _ quoted =>
        readOrder_of_entry quoted true
      simp only [processBook, processOrders, has_asks, has_bids, Json.elements,
        List.filterMap_map, Function.comp_def, asks, bids]
      simp only [updatesOfQuotes, List.map_append, List.map_map]
      rfl

theorem updates_of_data {channel : String} {message : Option Json} {data : List Json}
    {quotes : List Quotes}
    (on_channel : Json.field "channel" (Json.field "result" message) = some (.string channel))
    (listed : Json.field "data" (Json.field "result" message) = some (.array data))
    (named : channel = "book" ∨ channel = "book.update")
    (each : List.Forall₂ (Data channel) data quotes) :
    ((aggregatedUpdates message).map fun update => (sideOf update.1, update.2)) =
      (quotes.flatMap updatesOfQuotes).map updateOfQuote := by
  have update_ne_book : "book.update" ≠ "book" := by decide
  rcases named with rfl | rfl
  · simp only [aggregatedUpdates, on_channel, listed, Json.text, Option.getD_some, if_true,
      Json.elements, List.flatMap_map, List.map_flatMap]
    apply Json.flatMap_of_forall₂ each
    intro book quotes carried
    cases carried with
    | book whole sides => exact processBook_of_book sides
    | update change sides => exact absurd change.symm update_ne_book
  · simp only [aggregatedUpdates, on_channel, listed, Json.text, Option.getD_some, if_true,
      if_neg update_ne_book, Json.elements, List.flatMap_map, List.map_flatMap]
    apply Json.flatMap_of_forall₂ each
    intro data quotes carried
    cases carried with
    | book whole sides => exact absurd whole update_ne_book
    | update change sides => exact processBook_of_book sides

theorem updates_of_other {message : Option Json}
    (unnamed : ∀ channel, Json.field "channel" (Json.field "result" message) =
      some (.string channel) → channel ≠ "book" ∧ channel ≠ "book.update") :
    aggregatedUpdates message = [] := by
  have other_channel : ∀ name, name = "book" ∨ name = "book.update" →
      (Json.text (Json.field "channel" (Json.field "result" message))).getD "" ≠ name := by
    intro name forbidden
    cases found : Json.text (Json.field "channel" (Json.field "result" message)) with
    | none => rcases forbidden with rfl | rfl <;> decide
    | some channel =>
        obtain ⟨no_book, no_update⟩ := unnamed channel (Json.text_eq_some_iff.mp found)
        rcases forbidden with rfl | rfl
        · exact no_book
        · exact no_update
  rw [aggregatedUpdates, if_neg (other_channel _ (Or.inl rfl)),
    if_neg (other_channel _ (Or.inr rfl))]

end CryptoWs

/-- The handler of a feed reads the quotes of a well-formed message, each side in its order. -/
theorem aggregatedUpdates_of_carries {feed : Feed} {message : Option Json} {quotes : Quotes}
    (carried : Carries feed message quotes) :
    ∃ read : List (Side × ℚ × Volume),
      feed.aggregatedUpdates message = read.map updateOfQuote ∧
        ∀ side, onSide side read = quotes side := by
  cases carried with
  | @events _ events quotes listed each =>
      refine ⟨quotes.flatten, ?_, fun side => rfl⟩
      simp only [Feed.aggregatedUpdates, CoinbaseWs.aggregatedUpdates, listed, Json.elements,
        List.flatMap_map, List.map_flatMap, List.map_flatten]
      exact Json.flatMap_of_forall₂ each fun _ _ => CoinbaseWs.readEvent_of_event
  | @data _ channel data quotes on_channel listed named each =>
      refine ⟨quotes.flatMap CryptoWs.updatesOfQuotes, ?_, ?_⟩
      · exact CryptoWs.updates_of_data on_channel listed named each
      · intro side
        rw [onSide, List.filterMap_flatMap]
        exact congrArg (List.flatMap · quotes)
          (funext fun quoted => CryptoWs.onSide_updatesOfQuotes quoted side)
  | other unnamed =>
      refine ⟨[], ?_, fun side => rfl⟩
      rw [Feed.aggregatedUpdates, CryptoWs.updates_of_other unnamed]
      rfl

end CryptoInfra
