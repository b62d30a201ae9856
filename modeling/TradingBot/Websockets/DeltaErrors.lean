import TradingBot.Websockets.TopOfBook

/-!
# An update that raises

`apply_delta` reads the texts of an update while it applies them, so a text that is no decimal
raises after the updates before it were applied, and after a gap has made the book stale. The book
is as before exactly if those updates set what was there already. Levels are kept at the floats of
their prices, so that prices with one float share a level.
-/

namespace TradingBot.DeltaErrors

open LocalOrderBook TopOfBook

/-- The updates of one side before the first text that is no decimal. -/
def leading (decimal : String → Option ℚ) : List (String × String) → List (ℚ × ℚ)
  | [] => []
  | (priceText, quantityText) :: rest =>
    match decimal priceText, decimal quantityText with
    | some price, some quantity => (price, quantity) :: leading decimal rest
    | _, _ => []

/-- Every text of a side is a decimal. -/
def Readable (decimal : String → Option ℚ) (levels : List (String × String)) : Prop :=
  ∀ level ∈ levels, (decimal level.1).isSome ∧ (decimal level.2).isSome

/-- The last update at every price sets what the side has there already: no level for a quantity of
zero, else the level with that quantity. -/
def Settled (key : ℚ → ℚ) (side : BookSide) (levels : List (ℚ × ℚ)) : Prop :=
  ∀ place change,
    ((levels.map (levelChange key)).reverse.find? fun change => change.1 = place) = some change →
      side.lookup place = change.2

/-- The update is not newer than the last one. -/
def Skipped (book : LocalOrderBook) (message : DepthMessage) : Prop :=
  book.firstUpdateId.isSome ∧ message.updateId ≤ book.lastUpdateId

/-- An update was missed before this one. -/
def AfterGap (book : LocalOrderBook) (message : DepthMessage) : Prop :=
  book.firstUpdateId.isSome ∧ book.lastUpdateId + 1 < message.updateId

/-- An update that is skipped, or whose texts are all decimals; or one that raises when nothing is
changed yet: no gap made the book stale, and the updates before the text set what was there. -/
def Harmless (decimal : String → Option ℚ) (float : ℚ → ℚ) (book : LocalOrderBook)
    (message : DepthMessage) : Prop :=
  Skipped book message ∨ (Readable decimal message.bids ∧ Readable decimal message.asks) ∨
    (AfterGap book message → book.state = .stale) ∧
      Settled (bidKey ∘ float) book.bids (leading decimal message.bids) ∧
      (Readable decimal message.bids →
        Settled (askKey ∘ float) book.asks (leading decimal message.asks))

/-- Whenever the call raises or returns false, the levels, the last update id, the timestamp and
the state are as before. -/
def AllOrNothing (decimal : String → Option ℚ) (float : ℚ → ℚ) (book : LocalOrderBook)
    (message : DepthMessage) : Prop :=
  (book.applyDeltaText decimal float message).1 ≠ some true →
    (book.applyDeltaText decimal float message).2.bids = book.bids ∧
    (book.applyDeltaText decimal float message).2.asks = book.asks ∧
    (book.applyDeltaText decimal float message).2.lastUpdateId = book.lastUpdateId ∧
    (book.applyDeltaText decimal float message).2.timestamp = book.timestamp ∧
    (book.applyDeltaText decimal float message).2.state = book.state

variable {decimal : String → Option ℚ} {float key : ℚ → ℚ} {side : BookSide}
  {levels : List (String × String)} {book : LocalOrderBook} {message : DepthMessage}

/-! ## One side -/

theorem updateSideText_snd : (updateSideText decimal key side levels).2 =
    updateSide key side (leading decimal levels) := by
  induction levels generalizing side with
  | nil => rfl
  | cons level rest ih =>
    obtain ⟨priceText, quantityText⟩ := level
    unfold updateSideText leading
    cases decimal priceText with
    | none => rfl
    | some price =>
      cases decimal quantityText with
      | none => rfl
      | some quantity => exact ih

theorem updateSideText_fst : (updateSideText decimal key side levels).1 = true ↔
    Readable decimal levels := by
  induction levels generalizing side with
  | nil => exact iff_of_true rfl nofun
  | cons level rest ih =>
    obtain ⟨priceText, quantityText⟩ := level
    unfold updateSideText Readable
    rw [List.forall_mem_cons]
    cases price : decimal priceText with
    | none => simp
    | some price =>
      cases quantity : decimal quantityText with
      | none => simp
      | some quantity =>
        simp only [Option.isSome_some, and_self, true_and]
        exact ih

theorem updateSide_eq_self {levels : List (ℚ × ℚ)} :
    updateSide key side levels = side ↔ Settled key side levels := by
  rw [updateSide_eq]
  exact OrderedMap.changes_eq_self

/-! ## The call -/

/-- The book after the check of the update id. -/
def checked (book : LocalOrderBook) (message : DepthMessage) : LocalOrderBook :=
  if book.firstUpdateId.isSome ∧ book.lastUpdateId + 1 < message.updateId then
    { book with state := .stale }
  else book

theorem checked_eq :
    checked book message = { book with state := (checked book message).state } := by
  unfold checked
  split <;> rfl

theorem checked_state : (checked book message).state = book.state ↔
    (AfterGap book message → book.state = .stale) := by
  unfold checked AfterGap
  split
  · rename_i gap
    exact ⟨fun same _ => same.symm, fun stale => (stale gap).symm⟩
  · rename_i none_
    exact ⟨fun _ gap => absurd gap none_, fun _ => rfl⟩

/-- The update the texts of a message stand for. -/
def parsed (decimal : String → Option ℚ) (message : DepthMessage) : DepthUpdate where
  bids := leading decimal message.bids
  asks := leading decimal message.asks
  updateId := message.updateId
  timestamp := message.timestamp

theorem applyDeltaText_skipped (skipped : Skipped book message) :
    book.applyDeltaText decimal float message = (some false, book) := if_pos skipped

theorem applyDeltaText_fresh (fresh : ¬Skipped book message) :
    book.applyDeltaText decimal float message =
      let after := checked book message
      let bids := updateSideText decimal (bidKey ∘ float) after.bids message.bids
      let asks := updateSideText decimal (askKey ∘ float) after.asks message.asks
      if !bids.1 then (none, { after with bids := bids.2 })
      else if !asks.1 then (none, { after with bids := bids.2, asks := asks.2 })
      else (some true, { after with
        bids := trimSide after.maxDepth bids.2
        asks := trimSide after.maxDepth asks.2
        lastUpdateId := message.updateId
        timestamp := message.timestamp
        updateCount := after.updateCount + 1
        state := .ready }) :=
  if_neg fresh

/-- A message of decimals only is applied. -/
theorem applyDeltaText_readable (fresh : ¬Skipped book message)
    (bids : Readable decimal message.bids) (asks : Readable decimal message.asks) :
    book.applyDeltaText decimal float message = (some true, { checked book message with
      bids := trimSide book.maxDepth
        (updateSide (bidKey ∘ float) book.bids (leading decimal message.bids))
      asks := trimSide book.maxDepth
        (updateSide (askKey ∘ float) book.asks (leading decimal message.asks))
      lastUpdateId := message.updateId
      timestamp := message.timestamp
      updateCount := book.updateCount + 1
      state := .ready }) := by
  rw [applyDeltaText_fresh fresh, checked_eq]
  simp only [updateSideText_fst.mpr bids, updateSideText_fst.mpr asks, updateSideText_snd,
    Bool.not_true, Bool.false_eq_true, if_false]

/-- With exact keys, a message of decimals is the update that its texts stand for. -/
theorem applyDeltaText_exact (bids : Readable decimal message.bids)
    (asks : Readable decimal message.asks) :
    book.applyDeltaText decimal id message =
      (some (book.applyDelta (parsed decimal message)).1,
        (book.applyDelta (parsed decimal message)).2) := by
  by_cases skipped : Skipped book message
  · have same : book.applyDelta (parsed decimal message) = (false, book) := if_pos skipped
    rw [applyDeltaText_skipped skipped, same]
  · have newer : book.firstUpdateId.isSome → book.lastUpdateId < message.updateId :=
      fun loaded => lt_of_not_ge fun old => skipped ⟨loaded, old⟩
    rw [applyDeltaText_readable skipped bids asks, checked_eq, applyDelta_applied newer]
    simp only [trimSide_eq_take]
    rfl

theorem applyDeltaText_bids (fresh : ¬Skipped book message)
    (bids : ¬Readable decimal message.bids) :
    book.applyDeltaText decimal float message = (none, { book with
      state := (checked book message).state
      bids := updateSide (bidKey ∘ float) book.bids (leading decimal message.bids) }) := by
  have raised := mt (@updateSideText_fst _ (bidKey ∘ float) book.bids _).mp bids
  rw [Bool.not_eq_true] at raised
  rw [applyDeltaText_fresh fresh, checked_eq]
  simp only [raised, updateSideText_snd, Bool.not_false, if_true]

theorem applyDeltaText_asks (fresh : ¬Skipped book message)
    (bids : Readable decimal message.bids) (asks : ¬Readable decimal message.asks) :
    book.applyDeltaText decimal float message = (none, { book with
      state := (checked book message).state
      bids := updateSide (bidKey ∘ float) book.bids (leading decimal message.bids)
      asks := updateSide (askKey ∘ float) book.asks (leading decimal message.asks) }) := by
  have raised := mt (@updateSideText_fst _ (askKey ∘ float) book.asks _).mp asks
  rw [Bool.not_eq_true] at raised
  rw [applyDeltaText_fresh fresh, checked_eq]
  simp only [raised, updateSideText_fst.mpr bids, updateSideText_snd, Bool.not_true,
    Bool.not_false, Bool.false_eq_true, if_false, if_true]

/-- `apply_delta` is all or nothing on exactly the harmless updates. -/
theorem allOrNothing_iff (decimal : String → Option ℚ) (float : ℚ → ℚ) (book : LocalOrderBook)
    (message : DepthMessage) :
    AllOrNothing decimal float book message ↔ Harmless decimal float book message := by
  by_cases skipped : Skipped book message
  · refine iff_of_true ?_ (.inl skipped)
    unfold AllOrNothing
    rw [applyDeltaText_skipped skipped]
    exact fun _ => ⟨rfl, rfl, rfl, rfl, rfl⟩
  by_cases bids : Readable decimal message.bids
  · by_cases asks : Readable decimal message.asks
    · refine iff_of_true (fun failed => absurd ?_ failed) (.inr (.inl ⟨bids, asks⟩))
      rw [applyDeltaText_readable skipped bids asks]
    · unfold AllOrNothing Harmless
      rw [applyDeltaText_asks skipped bids asks]
      simp only [skipped, asks, bids, updateSide_eq_self, checked_state]
      tauto
  · unfold AllOrNothing Harmless
    rw [applyDeltaText_bids skipped bids]
    simp only [skipped, bids, updateSide_eq_self, checked_state]
    tauto

/-- A book with one bid of two at a hundred. -/
def oneBid : LocalOrderBook :=
  (LocalOrderBook.new "BTCUSDT" 1000).setSnapshot ⟨"BTCUSDT", [(100, 2)], [(101, 1)], 5, 10⟩

/-- A message that removes the bid and then names a quantity that is no number. -/
def misspelt : DepthMessage := ⟨[("100", "0"), ("99", "two")], [], 11, 6⟩

/-- The bid is gone although the call raised. Its prices are whole, and the floats of these are
exact. -/
theorem allOrNothing_fails : ¬AllOrNothing decimalOfText id oneBid misspelt := by
  intro atomic
  have seen : (oneBid.applyDeltaText decimalOfText id misspelt).1 = none ∧
      (oneBid.applyDeltaText decimalOfText id misspelt).2.bids.size = 0 ∧ oneBid.bids.size = 1 := by
    decide +kernel
  have kept := (atomic (by rw [seen.1]; nofun)).1
  rw [kept, seen.2.2] at seen
  exact absurd seen.2.1 (by decide)

end TradingBot.DeltaErrors
