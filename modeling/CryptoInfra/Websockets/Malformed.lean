import CryptoInfra.Orderbook.Ledger
import CryptoInfra.Websockets.Quotes

/-!
# Malformed entries

An entry whose price or quantity is missing, is no string, or is no finite decimal number should
have no effect. The handlers convert texts with a scanner that also reads white space, hexadecimal
numerals, infinities, numbers that are none, and the empty text, and one of them takes a missing
text for the empty one. This file says exactly which malformed entries get through.
-/

namespace CryptoInfra

open Numeral (Decimal Number)

/-! ## Entries and their removal -/

namespace CryptoWs

/-- The field of the entries of a side. -/
def ordersKey : Side → String
  | .bid => "bids"
  | .ask => "asks"

/-- The book of a data element, in the element or in its update. -/
def bookAt (nested : Bool) (data : Option Json) : Option Json :=
  if nested then Json.field "update" data else data

/-- Change the book of a data element. -/
def mapBook (nested : Bool) (change : Json → Json) : Json → Json :=
  if nested then Json.mapField "update" change else change

/-- The channel whose data elements hold their books there. -/
def channelOf (nested : Bool) : String :=
  if nested then "book.update" else "book"

end CryptoWs

/-- Where an entry stands in a message. -/
inductive Place : Feed → Type where
  | coinbase (event update : ℕ) : Place .coinbase
  | crypto (nested : Bool) (side : Side) (data order : ℕ) : Place .crypto

/-- The entry at a place. -/
def Place.entry {feed : Feed} (place : Place feed) (message : Option Json) : Option Json :=
  match place with
  | .coinbase event update =>
      Json.element update
        (Json.field "updates" (Json.element event (Json.field "events" message)))
  | .crypto nested side data order =>
      Json.element order (Json.field (CryptoWs.ordersKey side) (CryptoWs.bookAt nested
        (Json.element data (Json.field "data" (Json.field "result" message)))))

/-- Remove the entry at a place. -/
def Place.remove {feed : Feed} (place : Place feed) : Json → Json :=
  match place with
  | .coinbase event update =>
      Json.mapField "events" (Json.mapElement event
        (Json.mapField "updates" (Json.eraseElement update)))
  | .crypto nested side data order =>
      Json.mapField "result" (Json.mapField "data" (Json.mapElement data (CryptoWs.mapBook nested
        (Json.mapField (CryptoWs.ordersKey side) (Json.eraseElement order)))))

/-- The price of an entry, if it is a string. -/
def Feed.priceText : Feed → Json → Option String
  | .coinbase, entry => Json.text (Json.field "price_level" (some entry))
  | .crypto, entry => Json.text (Json.element 0 (some entry))

/-- The quantity of an entry, if it is a string. -/
def Feed.quantityText : Feed → Json → Option String
  | .coinbase, entry => Json.text (Json.field "new_quantity" (some entry))
  | .crypto, entry => Json.text (Json.element 1 (some entry))

/-- A finite decimal number. -/
def IsDecimal (text : Option String) : Prop :=
  ∃ characters value, text = some characters ∧ Decimal characters.toList value

/-- The price or the quantity is missing, no string, or no finite decimal number. -/
def Malformed (feed : Feed) (entry : Json) : Prop :=
  ¬ IsDecimal (feed.priceText entry) ∨ ¬ IsDecimal (feed.quantityText entry)

/-- The entry at a place produces no update, and the handler does to every book what it does without
the entry. -/
def Inert {feed : Feed} (place : Place feed) (message : Option Json) : Prop :=
  feed.aggregatedUpdates (message.map place.remove) = feed.aggregatedUpdates message ∧
    ∀ book, feed.handleMessage (message.map place.remove) book = feed.handleMessage message book

/-! ## Which entries are accepted -/

/-- The scanner reads the text as a whole. -/
def Readable (text : String) : Prop :=
  text = "" ∨ ∃ number, Numeral.Derives text.toList number

/-- The handler comes to the entry, and the entry has all texts it insists on, those of the price
and the quantity readable. -/
def Accepted {feed : Feed} (place : Place feed) (message : Option Json) (entry : Json) : Prop :=
  match feed, place with
  | .coinbase, .coinbase event _ =>
      (∃ type, Json.text (Json.field "type" (Json.element event (Json.field "events" message))) =
        some type ∧ (type = "update" ∨ type = "snapshot")) ∧
      (∃ side, Json.text (Json.field "side" (some entry)) = some side) ∧
      (∃ time, Json.text (Json.field "event_time" (some entry)) = some time) ∧
      (∃ price, Feed.coinbase.priceText entry = some price ∧ Readable price) ∧
      ∃ quantity, Feed.coinbase.quantityText entry = some quantity ∧ Readable quantity
  | .crypto, .crypto nested _ _ _ =>
      Json.text (Json.field "channel" (Json.field "result" message)) =
        some (CryptoWs.channelOf nested) ∧
      Readable ((Feed.crypto.priceText entry).getD "") ∧
      Readable ((Feed.crypto.quantityText entry).getD "")

theorem convertToDouble_ne_none_iff {text : String} :
    convertToDouble text ≠ none ↔ Readable text := by
  rw [Option.ne_none_iff_exists']
  simp only [convertToDouble_eq_some_iff, Readable]
  constructor
  · rintro ⟨number, ⟨empty, -⟩ | derived⟩
    · exact Or.inl empty
    · exact Or.inr ⟨number, derived⟩
  · rintro (empty | ⟨number, derived⟩)
    · exact ⟨.finite 0, Or.inl ⟨empty, rfl⟩⟩
    · exact ⟨number, Or.inr derived⟩

namespace CoinbaseWs

theorem readUpdate_ne_none_iff {entry : Json} :
    readUpdate (some entry) ≠ none ↔
      (∃ side, Json.text (Json.field "side" (some entry)) = some side) ∧
      (∃ time, Json.text (Json.field "event_time" (some entry)) = some time) ∧
      (∃ price, Feed.coinbase.priceText entry = some price ∧ Readable price) ∧
      ∃ quantity, Feed.coinbase.quantityText entry = some quantity ∧ Readable quantity := by
  simp only [← convertToDouble_ne_none_iff, Feed.priceText, Feed.quantityText,
    Option.ne_none_iff_exists', readUpdate, Option.bind_eq_bind, Option.bind_eq_some_iff,
    Option.pure_def, Option.some.injEq]
  constructor
  · rintro ⟨_, side, has_side, time, has_time, price, has_price, quantity, has_quantity, value,
      converted, volume, measured, -⟩
    exact ⟨⟨side, has_side⟩, ⟨time, has_time⟩, ⟨price, has_price, value, converted⟩, quantity,
      has_quantity, volume, measured⟩
  · rintro ⟨⟨side, has_side⟩, ⟨time, has_time⟩, ⟨price, has_price, value, converted⟩, quantity,
      has_quantity, volume, measured⟩
    exact ⟨_, side, has_side, time, has_time, price, has_price, quantity, has_quantity, value,
      converted, volume, measured, rfl⟩

/-- Removing an entry leaves the updates alone exactly if the handler skips the event or the
entry. -/
theorem updates_remove_iff {event update : ℕ} {message : Option Json} {entry : Json}
    (found : (Place.coinbase event update).entry message = some entry) :
    Feed.coinbase.aggregatedUpdates (message.map (Place.coinbase event update).remove) =
        Feed.coinbase.aggregatedUpdates message ↔
      ¬ Accepted (Place.coinbase event update) message entry := by
  simp only [Place.entry] at found
  cases at_event : Json.element event (Json.field "events" message) with
  | none =>
      rw [at_event] at found
      exact nomatch found
  | some holder =>
      rw [at_event] at found
      have type_kept : isBookEvent ((some holder).map
          (Json.mapField "updates" (Json.eraseElement update))) = isBookEvent (some holder) := by
        rw [isBookEvent, isBookEvent, Json.field_mapField_of_ne (by decide)]
      rw [Accepted, ← readUpdate_ne_none_iff, at_event, ← isBookEvent_iff]
      simp only [Feed.aggregatedUpdates, aggregatedUpdates, Place.remove,
        Json.field_mapField_self, Json.elements_mapElement, List.map_flatMap]
      rw [Json.flatMap_modify_eq_iff _ _ (Json.getElem?_elements at_event), readEvent, readEvent,
        type_kept]
      cases book_event : isBookEvent (some holder) with
      | false => simp
      | true =>
          rw [if_pos rfl, if_pos rfl, Json.field_mapField_self, Json.elements_eraseElement found,
            Json.map_filterMap_eraseIdx_eq_iff _ _ (Json.getElem?_elements found)]
          simp

end CoinbaseWs

namespace CryptoWs

theorem readOrder_ne_none_iff {isBid : Bool} {entry : Json} :
    readOrder isBid (some entry) ≠ none ↔
      Readable ((Feed.crypto.priceText entry).getD "") ∧
        Readable ((Feed.crypto.quantityText entry).getD "") := by
  rw [← convertToDouble_ne_none_iff, ← convertToDouble_ne_none_iff, Feed.priceText,
    Feed.quantityText, readOrder_eq]
  simp only [Option.ne_none_iff_exists', Option.bind_eq_some_iff, Option.some.injEq]
  constructor
  · rintro ⟨_, price, converted, volume, measured, -⟩
    exact ⟨⟨price, converted⟩, volume, measured⟩
  · rintro ⟨⟨price, converted⟩, volume, measured⟩
    exact ⟨_, price, converted, volume, measured, rfl⟩

/-- An entry without texts is read as volume zero at price zero. -/
example : readOrder false (some .null) = some (false, .finite 0, .finite 0) := rfl

theorem processOrders_erase_iff {order : ℕ} {orders : Option Json} {entry : Json}
    (found : Json.element order orders = some entry) (isBid : Bool) :
    ((processOrders (orders.map (Json.eraseElement order)) isBid).map fun update =>
        (sideOf update.1, update.2)) =
      ((processOrders orders isBid).map fun update => (sideOf update.1, update.2)) ↔
        ¬ (Readable ((Feed.crypto.priceText entry).getD "") ∧
          Readable ((Feed.crypto.quantityText entry).getD "")) := by
  rw [processOrders, processOrders, Json.elements_eraseElement found,
    Json.map_filterMap_eraseIdx_eq_iff _ _ (Json.getElem?_elements found),
    ← readOrder_ne_none_iff, not_not]

/-- Removing an entry of a side leaves the updates of a book alone exactly if the handler skips
it. -/
theorem processBook_erase_iff {side : Side} {order : ℕ} {book : Option Json} {entry : Json}
    (found : Json.element order (Json.field (ordersKey side) book) = some entry) :
    ((processBook (book.map (Json.mapField (ordersKey side) (Json.eraseElement order)))).map
        fun update => (sideOf update.1, update.2)) =
      ((processBook book).map fun update => (sideOf update.1, update.2)) ↔
        ¬ (Readable ((Feed.crypto.priceText entry).getD "") ∧
          Readable ((Feed.crypto.quantityText entry).getD "")) := by
  have asks_not_bids : "asks" ≠ "bids" := by decide
  cases side with
  | bid =>
      simp only [ordersKey] at found ⊢
      rw [processBook, processBook, List.map_append, List.map_append,
        Json.field_mapField_of_ne asks_not_bids, Json.field_mapField_self, List.append_right_inj,
        processOrders_erase_iff found]
  | ask =>
      simp only [ordersKey] at found ⊢
      rw [processBook, processBook, List.map_append, List.map_append,
        Json.field_mapField_of_ne asks_not_bids.symm, Json.field_mapField_self,
        List.append_left_inj, processOrders_erase_iff found]

/-- The data elements a handled message lists. -/
def dataOf (message : Option Json) : Option Json :=
  Json.field "data" (Json.field "result" message)

/-- On the channel of a location the handler reads the books there. -/
theorem aggregatedUpdates_of_channel {message : Option Json} {nested : Bool}
    (on_channel : Json.text (Json.field "channel" (Json.field "result" message)) =
      some (channelOf nested)) :
    aggregatedUpdates message =
      (Json.elements (dataOf message)).flatMap fun data => processBook (bookAt nested data) := by
  cases nested with
  | false => simp [aggregatedUpdates, on_channel, channelOf, bookAt, dataOf]
  | true => simp [aggregatedUpdates, on_channel, channelOf, bookAt, dataOf]

/-- A change of a side at one location does not change what is read at the other. -/
theorem processBook_mapBook_of_ne {read nested : Bool} (different : read ≠ nested) (side : Side)
    (change : Json → Json) (data : Option Json) :
    processBook (bookAt read (data.map (mapBook nested (Json.mapField (ordersKey side) change)))) =
      processBook (bookAt read data) := by
  cases read with
  | false =>
      obtain rfl : nested = true := by simpa using different.symm
      simp only [bookAt, mapBook, if_true, Bool.false_eq_true, if_false]
      rw [processBook, processBook, Json.field_mapField_of_ne (by decide),
        Json.field_mapField_of_ne (by decide)]
  | true =>
      obtain rfl : nested = false := by simpa using different.symm
      simp only [bookAt, mapBook, if_true, Bool.false_eq_true, if_false]
      rw [Json.field_mapField_of_ne (by cases side <;> decide)]

theorem bookAt_mapBook (nested : Bool) (change : Json → Json) (data : Option Json) :
    bookAt nested (data.map (mapBook nested change)) = (bookAt nested data).map change := by
  cases nested with
  | false => rfl
  | true => exact Json.field_mapField_self "update" change data

theorem channelOf_inj {left right : Bool} : channelOf left = channelOf right ↔ left = right := by
  cases left <;> cases right <;> decide

theorem aggregatedUpdates_of_unhandled {message : Option Json}
    (unhandled : ∀ read, Json.text (Json.field "channel" (Json.field "result" message)) ≠
      some (channelOf read)) : aggregatedUpdates message = [] := by
  apply updates_of_other
  intro channel on_channel
  constructor <;> rintro rfl
  · exact unhandled false (Json.text_eq_some_iff.mpr on_channel)
  · exact unhandled true (Json.text_eq_some_iff.mpr on_channel)

section Removal

variable (nested : Bool) (side : Side) (data order : ℕ) (message : Option Json)

theorem channel_remove :
    Json.field "channel"
        (Json.field "result" (message.map (Place.crypto nested side data order).remove)) =
      Json.field "channel" (Json.field "result" message) := by
  rw [Place.remove, Json.field_mapField_self, Json.field_mapField_of_ne (by decide)]

theorem dataOf_remove :
    dataOf (message.map (Place.crypto nested side data order).remove) =
      (dataOf message).map (Json.mapElement data (mapBook nested
        (Json.mapField (ordersKey side) (Json.eraseElement order)))) := by
  rw [dataOf, Place.remove, Json.field_mapField_self, Json.field_mapField_self, dataOf]

end Removal

/-- Removing an entry leaves the updates alone exactly if the handler does not read its channel or
skips it. -/
theorem updates_remove_iff {nested : Bool} {side : Side} {data order : ℕ}
    {message : Option Json} {entry : Json}
    (found : (Place.crypto nested side data order).entry message = some entry) :
    Feed.crypto.aggregatedUpdates (message.map (Place.crypto nested side data order).remove) =
        Feed.crypto.aggregatedUpdates message ↔
      ¬ Accepted (Place.crypto nested side data order) message entry := by
  have channel_kept := channel_remove nested side data order message
  simp only [Place.entry] at found
  cases at_data : Json.element data (dataOf message) with
  | none =>
      rw [← dataOf, at_data] at found
      cases nested <;> exact nomatch found
  | some holder =>
      rw [← dataOf, at_data] at found
      rw [Feed.aggregatedUpdates, Feed.aggregatedUpdates, Accepted]
      by_cases handled : ∃ read,
          Json.text (Json.field "channel" (Json.field "result" message)) = some (channelOf read)
      · obtain ⟨read, on_channel⟩ := handled
        rw [aggregatedUpdates_of_channel on_channel,
          aggregatedUpdates_of_channel (channel_kept ▸ on_channel), dataOf_remove,
          Json.elements_mapElement, List.map_flatMap, List.map_flatMap,
          Json.flatMap_modify_eq_iff _ _ (Json.getElem?_elements at_data), on_channel,
          Option.some_inj, channelOf_inj]
        by_cases same : read = nested
        · subst same
          rw [bookAt_mapBook, processBook_erase_iff found]
          simp
        · rw [processBook_mapBook_of_ne same]
          simp [same]
      · rw [not_exists] at handled
        rw [aggregatedUpdates_of_unhandled handled,
          aggregatedUpdates_of_unhandled (channel_kept ▸ handled)]
        exact iff_of_true rfl fun accepted => handled nested accepted.1

end CryptoWs

/-! ## The malformed entries which get through -/

theorem inert_iff {feed : Feed} {place : Place feed} {message : Option Json} {entry : Json}
    (found : place.entry message = some entry) :
    Inert place message ↔ ¬ Accepted place message entry := by
  have updates : feed.aggregatedUpdates (message.map place.remove) =
      feed.aggregatedUpdates message ↔ ¬ Accepted place message entry := by
    cases place with
    | coinbase event update => exact CoinbaseWs.updates_remove_iff found
    | crypto nested side data order => exact CryptoWs.updates_remove_iff found
  rw [← updates, Inert, and_iff_left_iff_imp]
  intro same book
  rw [Feed.handleMessage, Feed.handleMessage, same]

/-- The malformed entries of a message have no effect exactly if the handler accepts none. -/
theorem malformed_inert_iff (feed : Feed) (message : Option Json) :
    (∀ (place : Place feed) entry, place.entry message = some entry →
        Malformed feed entry → Inert place message) ↔
      ∀ (place : Place feed) entry, place.entry message = some entry →
        Malformed feed entry → ¬ Accepted place message entry := by
  refine forall₂_congr fun place entry => forall_congr' fun found => ?_
  rw [inert_iff found]

/-- A bid of Coinbase with an empty quantity. -/
def emptyQuantityMessage : Option Json :=
  some (.object [("events", .array [.object [("type", .string "update"),
    ("updates", .array [.object [("side", .string "bid"), ("event_time", .string "now"),
      ("price_level", .string "10"), ("new_quantity", .string "")]])]])])

/-- The empty quantity deletes the level which the book holds at the price. -/
theorem empty_quantity_deletes_level :
    let level := Feed.coinbase.adjusted .bid 10
    let book := (Orderbook.run 1 [.update .bid "coinbase" level 3]).1
    let place := Place.coinbase 0 0
    let volumeAfter := fun message => (Feed.coinbase.handleMessage message book).map
      fun handled => handled.1.getExchangeVolume .bid "coinbase" level
    (∃ entry, place.entry emptyQuantityMessage = some entry ∧ Malformed .coinbase entry) ∧
      volumeAfter (emptyQuantityMessage.map place.remove) = some 3 ∧
        volumeAfter emptyQuantityMessage = some 0 := by
  intro level book place volumeAfter
  have held : book.getExchangeVolume .bid "coinbase" level = 3 := by
    rw [Orderbook.getExchangeVolume_eq, Orderbook.side_run, volumeAt_sideRun]
    simp [recentVolume, History.latest, updateOf]
  have updates : Feed.coinbase.aggregatedUpdates emptyQuantityMessage =
      [(.bid, .finite 10, .finite 0)] := by
    have ten : Decimal "10".toList 10 := .of_digits rfl rfl rfl
    have price := convertToDouble_of_decimal ten
    have quantity : convertToDouble "" = some (.finite 0) := rfl
    simp [Feed.aggregatedUpdates, CoinbaseWs.aggregatedUpdates, emptyQuantityMessage,
      CoinbaseWs.readEvent, CoinbaseWs.isBookEvent, CoinbaseWs.readUpdate, Json.field,
      Json.elements, Json.text, List.lookup_cons, CoinbaseWs.sideOf, price, quantity]
  refine ⟨⟨_, rfl, Or.inr ?_⟩, ?_, ?_⟩
  · rintro ⟨characters, value, text, decimal⟩
    obtain rfl := Option.some.inj text
    exact decimal.ne_nil rfl
  · have none_left : Feed.coinbase.aggregatedUpdates (emptyQuantityMessage.map place.remove) = [] :=
      rfl
    simpa [volumeAfter, Feed.handleMessage, none_left] using held
  · have deletion : ([(.bid, .finite 10, .finite 0)] : List (Side × Number × Number)).mapM
        Feed.coinbase.call = some [.update .bid "coinbase" level 0] := rfl
    have emptied := book.getExchangeVolume_historyRun [.update .bid "coinbase" level 0] .bid
      "coinbase" level
    simp only [volumeAfter, Feed.handleMessage, updates, deletion]
    exact congrArg some (emptied.trans (by simp [History.latest, updateOf]))

end CryptoInfra
