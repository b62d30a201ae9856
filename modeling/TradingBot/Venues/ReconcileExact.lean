import TradingBot.Venues.CrossReconciler

/-!
# What a cross-venue reconciliation misses

The loops visit the external records only. A record that only the internal side has is compared
with nothing, and one that only the exchange has is always reported and never fatal. Records on
both sides are reported and halt the trading exactly by their drifts.
-/

namespace TradingBot.Venues

open CrossVenueReconciler

namespace ReconcileExact

/-- The drift of a value from another in percent of the larger. -/
def drift (internal external : ℚ) : ℚ :=
  |internal - external| / max (max |internal| |external|) (1 / 10000000000) * 100

/-- The value of a record, or zero without one. -/
def valueOf {ρ : Type} (kind : RecordKind ρ) (record : Option ρ) : ℚ :=
  (record.map kind.value).getD 0

/-- The drift of the records of a venue and a name, a missing one counting as zero. -/
def keyDrift {ρ : Type} (kind : RecordKind ρ) (internals externals : Dict Venue (Dict String ρ))
    (venue : Venue) (name : String) : ℚ :=
  drift (valueOf kind (recordOf internals venue name))
    (valueOf kind (recordOf externals venue name))

/-- Some result reports a venue and a name. -/
def Reported (results : List ReconciliationResult) (venue : Venue) (name : String) : Prop :=
  ∃ result ∈ results, result.venue = venue ∧ result.assetOrSymbol = name ∧
    result.status ≠ .matched

/-- The reported keys are exactly those with a drift of at least a threshold. -/
def ReportsExactly {ρ : Type} (kind : RecordKind ρ)
    (internals externals : Dict Venue (Dict String ρ)) (threshold : ℚ)
    (results : List ReconciliationResult) : Prop :=
  ∀ venue name, Reported results venue name ↔
    threshold ≤ keyDrift kind internals externals venue name

/-- Some key has a drift of at least a threshold. -/
def SomeDrift {ρ : Type} (kind : RecordKind ρ) (internals externals : Dict Venue (Dict String ρ))
    (threshold : ℚ) : Prop :=
  ∃ venue name, threshold ≤ keyDrift kind internals externals venue name

/-- `reconcile_all` reports exactly the keys with a drift, of the balances and of the positions,
and trading is halted after it if one of the drifts is fatal. -/
def Reconciles (reconciler : CrossVenueReconciler) : Prop :=
  ReportsExactly balanceKind reconciler.internalBalances reconciler.externalBalances
      reconciler.driftThresholdPct reconciler.reconcileAll.1.balances ∧
    ReportsExactly positionKind reconciler.internalPositions reconciler.externalPositions
      reconciler.driftThresholdPct reconciler.reconcileAll.1.positions ∧
    (SomeDrift balanceKind reconciler.internalBalances reconciler.externalBalances
          reconciler.fatalDesyncThresholdPct ∨
        SomeDrift positionKind reconciler.internalPositions reconciler.externalPositions
          reconciler.fatalDesyncThresholdPct →
      reconciler.reconcileAll.2.tradingHalted = true)

/-- Keys that only the internal side has do not drift, and keys that only the exchange has do. -/
def OneSidedFit {ρ : Type} (kind : RecordKind ρ) (internals externals : Dict Venue (Dict String ρ))
    (threshold : ℚ) : Prop :=
  ∀ venue name,
    (recordOf externals venue name = none →
      keyDrift kind internals externals venue name < threshold) ∧
    (recordOf internals venue name = none → recordOf externals venue name ≠ none →
      threshold ≤ keyDrift kind internals externals venue name)

/-- Some key that only the exchange has drifts by at least a threshold. -/
def ExternalOnlyDrift {ρ : Type} (kind : RecordKind ρ)
    (internals externals : Dict Venue (Dict String ρ)) (threshold : ℚ) : Prop :=
  ∃ venue name, recordOf internals venue name = none ∧ recordOf externals venue name ≠ none ∧
    threshold ≤ keyDrift kind internals externals venue name

/-- Some key that both sides have drifts by at least a threshold. -/
def TwoSidedDrift {ρ : Type} (kind : RecordKind ρ)
    (internals externals : Dict Venue (Dict String ρ)) (threshold : ℚ) : Prop :=
  ∃ venue name, recordOf internals venue name ≠ none ∧ recordOf externals venue name ≠ none ∧
    threshold ≤ keyDrift kind internals externals venue name

/-- Keys on one side drift as they are treated, and a fatal drift of a key that only the exchange
has comes with a reason to halt: trading is halted before, or a key of both sides is fatal. -/
def OneSidedCovered (reconciler : CrossVenueReconciler) : Prop :=
  OneSidedFit balanceKind reconciler.internalBalances reconciler.externalBalances
      reconciler.driftThresholdPct ∧
    OneSidedFit positionKind reconciler.internalPositions reconciler.externalPositions
      reconciler.driftThresholdPct ∧
    (ExternalOnlyDrift balanceKind reconciler.internalBalances reconciler.externalBalances
          reconciler.fatalDesyncThresholdPct ∨
        ExternalOnlyDrift positionKind reconciler.internalPositions reconciler.externalPositions
          reconciler.fatalDesyncThresholdPct →
      reconciler.tradingHalted = true ∨
        TwoSidedDrift balanceKind reconciler.internalBalances reconciler.externalBalances
          reconciler.fatalDesyncThresholdPct ∨
        TwoSidedDrift positionKind reconciler.internalPositions reconciler.externalPositions
          reconciler.fatalDesyncThresholdPct)

/-- No balance is negative. -/
def BalancesNonneg (records : Dict Venue (Dict String BalanceRecord)) : Prop :=
  ∀ venue name record, recordOf records venue name = some record → 0 ≤ record.total

/-! ## The results of a loop -/

section Loops

variable {ρ : Type} {kind : RecordKind ρ} {reconciler other : CrossVenueReconciler}
  {venue : Venue} {name : String} {internal : Option ρ} {external : ρ}
  {result : ReconciliationResult}

/-- What a reconciliation leaves as it is. -/
structure Frame (before after : CrossVenueReconciler) : Prop where
  threshold : after.driftThresholdPct = before.driftThresholdPct
  halted : after.tradingHalted = before.tradingHalted
  internals : after.internalPositions = before.internalPositions
  externals : after.externalPositions = before.externalPositions

theorem Frame.refl (reconciler : CrossVenueReconciler) : Frame reconciler reconciler :=
  ⟨rfl, rfl, rfl, rfl⟩

theorem Frame.trans {first second third : CrossVenueReconciler} (left : Frame first second)
    (right : Frame second third) : Frame first third :=
  ⟨right.threshold.trans left.threshold, right.halted.trans left.halted,
    right.internals.trans left.internals, right.externals.trans left.externals⟩

theorem frame_reconcileRecord :
    Frame reconciler (reconciler.reconcileRecord kind venue name internal external).2 := by
  unfold reconcileRecord
  cases internal with
  | none => exact .refl reconciler
  | some internal =>
    dsimp only
    split
    · exact .refl reconciler
    · dsimp only
      split
      · exact ⟨rfl, rfl, rfl, rfl⟩
      · exact ⟨rfl, rfl, rfl, rfl⟩

theorem reconcileRecord_congr (same : other.driftThresholdPct = reconciler.driftThresholdPct) :
    (other.reconcileRecord kind venue name internal external).1 =
      (reconciler.reconcileRecord kind venue name internal external).1 := by
  have classified : other.classifyDrift = reconciler.classifyDrift := by
    funext driftPct
    unfold classifyDrift majorDriftThresholdPct fatalDesyncThresholdPct
    rw [same]
  unfold reconcileRecord
  cases internal with
  | none => rfl
  | some internal =>
    dsimp only
    rw [classified]
    split <;> rfl

/-- The results of a venue are those of its records. -/
theorem reconcileVenue_spec {internals : Dict String ρ} (entries : List (String × ρ))
    (reconciler : CrossVenueReconciler) :
    Frame reconciler (reconcileVenue kind venue internals entries reconciler).2 ∧
      ∀ result, result ∈ (reconcileVenue kind venue internals entries reconciler).1 ↔
        ∃ entry ∈ entries, result ∈
          (reconciler.reconcileRecord kind venue entry.1 (internals.get entry.1) entry.2).1 := by
  induction entries generalizing reconciler with
  | nil => exact ⟨.refl reconciler, fun result => by simp [reconcileVenue]⟩
  | cons entry rest ih =>
    have first := @frame_reconcileRecord _ kind reconciler venue entry.1 (internals.get entry.1)
      entry.2
    obtain ⟨later, member⟩ := ih
      (reconciler.reconcileRecord kind venue entry.1 (internals.get entry.1) entry.2).2
    refine ⟨first.trans later, fun result => ?_⟩
    dsimp only [reconcileVenue]
    rw [List.mem_append, member, List.exists_mem_cons_iff]
    simp only [reconcileRecord_congr first.threshold]

/-- The results are those of every venue's records. -/
theorem reconcileVenues_spec {internals : Dict Venue (Dict String ρ)}
    (entries : List (Venue × Dict String ρ)) (reconciler : CrossVenueReconciler) :
    Frame reconciler (reconcileVenues kind internals entries reconciler).2 ∧
      ∀ result, result ∈ (reconcileVenues kind internals entries reconciler).1 ↔
        ∃ entry ∈ entries, ∃ record ∈ entry.2.entries, result ∈
          (reconciler.reconcileRecord kind entry.1 record.1
            (((internals.get entry.1).getD .empty).get record.1) record.2).1 := by
  induction entries generalizing reconciler with
  | nil => exact ⟨.refl reconciler, fun result => by simp [reconcileVenues]⟩
  | cons entry rest ih =>
    obtain ⟨first, here⟩ := @reconcileVenue_spec _ kind entry.1
      ((internals.get entry.1).getD .empty) entry.2.entries reconciler
    obtain ⟨later, member⟩ := ih (reconcileVenue kind entry.1
      ((internals.get entry.1).getD .empty) entry.2.entries reconciler).2
    refine ⟨first.trans later, fun result => ?_⟩
    dsimp only [reconcileVenues]
    rw [List.mem_append, here, member, List.exists_mem_cons_iff]
    simp only [reconcileRecord_congr first.threshold]

theorem mem_reconcileVenues {internals externals : Dict Venue (Dict String ρ)} :
    result ∈ (reconcileVenues kind internals externals.entries reconciler).1 ↔
      ∃ venue name external, recordOf externals venue name = some external ∧ result ∈
        (reconciler.reconcileRecord kind venue name (recordOf internals venue name)
          external).1 := by
  have internalOf : ∀ venue name, ((internals.get venue).getD .empty).get name =
      recordOf internals venue name := by
    intro venue name
    unfold recordOf
    cases internals.get venue <;> rfl
  rw [(reconcileVenues_spec externals.entries reconciler).2]
  constructor
  · rintro ⟨⟨venue, records⟩, member, ⟨name, external⟩, recorded, found⟩
    rw [internalOf] at found
    refine ⟨venue, name, external, ?_, found⟩
    unfold recordOf
    rw [Dict.get_eq_some.mpr member]
    exact Dict.get_eq_some.mpr recorded
  · rintro ⟨venue, name, external, recorded, found⟩
    obtain ⟨records, member, entry⟩ := Option.bind_eq_some_iff.mp recorded
    refine ⟨(venue, records), Dict.get_eq_some.mp member, (name, external),
      Dict.get_eq_some.mp entry, ?_⟩
    rw [internalOf]
    exact found

end Loops

/-! ## The drift of a key -/

section Keys

variable {ρ : Type} {kind : RecordKind ρ} {reconciler : CrossVenueReconciler} {venue : Venue}
  {name : String} {external : ρ} {result : ReconciliationResult}
  {internals externals : Dict Venue (Dict String ρ)}

/-- The sizes of the values of all records are their absolute values. -/
def Sized (kind : RecordKind ρ) (records : Dict Venue (Dict String ρ)) : Prop :=
  ∀ venue name record, recordOf records venue name = some record →
    kind.size (kind.value record) = |kind.value record|

theorem classifyDrift_matched_iff {driftPct : ℚ} :
    reconciler.classifyDrift driftPct = .matched ↔ driftPct < reconciler.driftThresholdPct := by
  unfold classifyDrift
  split
  · rename_i small
    exact iff_of_true rfl small
  · rename_i large
    refine iff_of_false ?_ large
    split
    · decide
    · split <;> decide

theorem classifyDrift_fatal_iff (positive : 0 < reconciler.driftThresholdPct) {driftPct : ℚ} :
    reconciler.classifyDrift driftPct = .fatalDesync ↔
      reconciler.fatalDesyncThresholdPct ≤ driftPct := by
  unfold classifyDrift majorDriftThresholdPct fatalDesyncThresholdPct
  split
  · refine iff_of_false (by decide) fun fatal => ?_
    linarith
  · split
    · refine iff_of_false (by decide) fun fatal => ?_
      linarith
    · split
      · rename_i below
        exact iff_of_false (by decide) (not_le.mpr below)
      · rename_i above
        exact iff_of_true rfl (not_lt.mp above)

theorem result_of_mem {internal : Option ρ}
    (member : result ∈ (reconciler.reconcileRecord kind venue name internal external).1) :
    result.venue = venue ∧ result.assetOrSymbol = name ∧ result.status ≠ .matched := by
  unfold reconcileRecord at member
  cases internal with
  | none =>
    rw [List.mem_singleton.mp member]
    exact ⟨rfl, rfl, ReconciliationStatus.noConfusion⟩
  | some internal =>
    dsimp only at member
    split at member
    · exact absurd member List.not_mem_nil
    · rename_i differs
      rw [List.mem_singleton.mp member]
      exact ⟨rfl, rfl, differs⟩

theorem mem_missing :
    (∃ result, result ∈ (reconciler.reconcileRecord kind venue name none external).1) ∧
      ∀ result ∈ (reconciler.reconcileRecord kind venue name none external).1,
        result.status ≠ .fatalDesync := by
  refine ⟨⟨_, List.mem_singleton.mpr rfl⟩, fun result member => ?_⟩
  rw [List.mem_singleton.mp member]
  exact ReconciliationStatus.noConfusion

/-- Records of both sides have a result if they drift, and a fatal one if they drift fatally. -/
theorem mem_both {internal : ρ} (positive : 0 < reconciler.driftThresholdPct)
    (sizedInternal : kind.size (kind.value internal) = |kind.value internal|)
    (sizedExternal : kind.size (kind.value external) = |kind.value external|) :
    ((∃ result, result ∈
        (reconciler.reconcileRecord kind venue name (some internal) external).1) ↔
      reconciler.driftThresholdPct ≤ drift (kind.value internal) (kind.value external)) ∧
    ((∃ result ∈ (reconciler.reconcileRecord kind venue name (some internal) external).1,
        result.status = .fatalDesync) ↔
      reconciler.fatalDesyncThresholdPct ≤ drift (kind.value internal) (kind.value external)) := by
  rw [← classifyDrift_fatal_iff positive, ← not_lt, ← classifyDrift_matched_iff]
  by_cases matched : reconciler.classifyDrift
      (drift (kind.value internal) (kind.value external)) = .matched
  · have none_ : (reconciler.reconcileRecord kind venue name (some internal) external).1 = [] := by
      unfold reconcileRecord
      dsimp only
      rw [sizedInternal, sizedExternal]
      exact congrArg Prod.fst (if_pos matched)
    rw [none_, matched]
    constructor
    · exact iff_of_false (fun some_ => List.not_mem_nil some_.choose_spec) (not_not.mpr rfl)
    · exact iff_of_false (fun some_ => List.not_mem_nil some_.choose_spec.1)
        ReconciliationStatus.noConfusion
  · have one : ∃ result, (reconciler.reconcileRecord kind venue name (some internal)
        external).1 = [result] ∧ result.status =
          reconciler.classifyDrift (drift (kind.value internal) (kind.value external)) := by
      unfold reconcileRecord
      dsimp only
      rw [sizedInternal, sizedExternal]
      exact ⟨_, congrArg Prod.fst (if_neg matched), rfl⟩
    obtain ⟨result, results, status⟩ := one
    rw [results, ← status]
    constructor
    · refine iff_of_true ⟨result, List.mem_singleton_self result⟩ ?_
      rw [status]
      exact matched
    · simp

theorem driftReported_iff (positive : 0 < reconciler.driftThresholdPct)
    (sizedInternals : Sized kind internals) (sizedExternals : Sized kind externals) :
    Reported (reconcileVenues kind internals externals.entries reconciler).1 venue name ↔
      recordOf externals venue name ≠ none ∧ (recordOf internals venue name = none ∨
        reconciler.driftThresholdPct ≤ keyDrift kind internals externals venue name) := by
  constructor
  · rintro ⟨result, member, rfl, rfl, differs⟩
    obtain ⟨venue, name, external, recorded, found⟩ := mem_reconcileVenues.mp member
    obtain ⟨rfl, rfl, _⟩ := result_of_mem found
    refine ⟨fun none_ => Option.some_ne_none external (recorded.symm.trans none_), ?_⟩
    cases known : recordOf internals result.venue result.assetOrSymbol with
    | none => exact .inl rfl
    | some internal =>
      right
      rw [known] at found
      have drifts := (mem_both positive (sizedInternals _ _ _ known)
        (sizedExternals _ _ _ recorded)).1.mp ⟨result, found⟩
      rw [keyDrift, known, recorded]
      exact drifts
  · rintro ⟨present, missing⟩
    obtain ⟨external, recorded⟩ := Option.ne_none_iff_exists'.mp present
    have found : ∃ result, result ∈ (reconciler.reconcileRecord kind venue name
        (recordOf internals venue name) external).1 := by
      cases known : recordOf internals venue name with
      | none => exact mem_missing.1
      | some internal =>
        rcases missing with missing | drifts
        · exact absurd (known.symm.trans missing) (Option.some_ne_none internal)
        · rw [keyDrift, known, recorded] at drifts
          exact (mem_both positive (sizedInternals _ _ _ known)
            (sizedExternals _ _ _ recorded)).1.mpr drifts
    obtain ⟨result, member⟩ := found
    obtain ⟨ofVenue, ofName, differs⟩ := result_of_mem member
    exact ⟨result, mem_reconcileVenues.mpr ⟨venue, name, external, recorded, member⟩, ofVenue,
      ofName, differs⟩

theorem fatal_iff (positive : 0 < reconciler.driftThresholdPct)
    (sizedInternals : Sized kind internals) (sizedExternals : Sized kind externals) :
    (∃ result ∈ (reconcileVenues kind internals externals.entries reconciler).1,
        result.status = .fatalDesync) ↔
      TwoSidedDrift kind internals externals reconciler.fatalDesyncThresholdPct := by
  constructor
  · rintro ⟨result, member, fatal⟩
    obtain ⟨venue, name, external, recorded, found⟩ := mem_reconcileVenues.mp member
    cases known : recordOf internals venue name with
    | none =>
      rw [known] at found
      exact absurd fatal (mem_missing.2 result found)
    | some internal =>
      rw [known] at found
      have drifts := (mem_both positive (sizedInternals _ _ _ known)
        (sizedExternals _ _ _ recorded)).2.mp ⟨result, found, fatal⟩
      refine ⟨venue, name, ?_, ?_, ?_⟩
      · rw [known]
        exact Option.some_ne_none internal
      · rw [recorded]
        exact Option.some_ne_none external
      · rw [keyDrift, known, recorded]
        exact drifts
  · rintro ⟨venue, name, known, recorded, drifts⟩
    obtain ⟨internal, known⟩ := Option.ne_none_iff_exists'.mp known
    obtain ⟨external, recorded⟩ := Option.ne_none_iff_exists'.mp recorded
    rw [keyDrift, known, recorded] at drifts
    obtain ⟨result, member, fatal⟩ := (@mem_both _ kind reconciler venue name external internal
      positive (sizedInternals _ _ _ known) (sizedExternals _ _ _ recorded)).2.mpr drifts
    refine ⟨result, mem_reconcileVenues.mpr ⟨venue, name, external, recorded, ?_⟩, fatal⟩
    rw [known]
    exact member

theorem reportsExactly_iff (positive : 0 < reconciler.driftThresholdPct)
    (sizedInternals : Sized kind internals) (sizedExternals : Sized kind externals) :
    ReportsExactly kind internals externals reconciler.driftThresholdPct
        (reconcileVenues kind internals externals.entries reconciler).1 ↔
      OneSidedFit kind internals externals reconciler.driftThresholdPct := by
  unfold ReportsExactly OneSidedFit
  refine forall_congr' fun venue => forall_congr' fun name => ?_
  rw [driftReported_iff positive sizedInternals sizedExternals]
  constructor
  · intro same
    refine ⟨fun absent => ?_, fun unknown present => same.mp ⟨present, .inl unknown⟩⟩
    by_contra drifts
    exact (same.mpr (not_lt.mp drifts)).1 absent
  · rintro ⟨absent, unknown⟩
    constructor
    · rintro ⟨present, missing | drifts⟩
      · exact unknown missing present
      · exact drifts
    · exact fun drifts => ⟨fun none_ => absurd (absent none_) (not_lt.mpr drifts), .inr drifts⟩

end Keys

/-! ## The whole reconciliation -/

section Whole

variable {reconciler : CrossVenueReconciler}

/-- The parts of a reconciliation: its two loops, and trading halted by their fatal results. -/
theorem reconcileAll_parts (reconciler : CrossVenueReconciler) :
    ∃ first second, Frame reconciler first ∧ Frame reconciler second ∧
      reconciler.reconcileAll.1.balances = (reconcileVenues balanceKind
        reconciler.internalBalances reconciler.externalBalances.entries first).1 ∧
      reconciler.reconcileAll.1.positions = (reconcileVenues positionKind
        reconciler.internalPositions reconciler.externalPositions.entries second).1 ∧
      (reconciler.reconcileAll.2.tradingHalted = true ↔ reconciler.tradingHalted = true ∨
        (∃ result ∈ reconciler.reconcileAll.1.balances, result.status = .fatalDesync) ∨
        ∃ result ∈ reconciler.reconcileAll.1.positions, result.status = .fatalDesync) := by
  let counted := { reconciler with reconciliationCount := reconciler.reconciliationCount + 1 }
  have frame : Frame reconciler counted := ⟨rfl, rfl, rfl, rfl⟩
  have balances := frame.trans (@reconcileVenues_spec _ balanceKind counted.internalBalances
    counted.externalBalances.entries counted).1
  have positions := balances.trans (@reconcileVenues_spec _ positionKind
    counted.reconcileBalances.2.internalPositions
    counted.reconcileBalances.2.externalPositions.entries counted.reconcileBalances.2).1
  refine ⟨counted, counted.reconcileBalances.2, frame, balances, rfl, ?_, ?_⟩
  · change (reconcileVenues positionKind counted.reconcileBalances.2.internalPositions
      counted.reconcileBalances.2.externalPositions.entries _).1 = _
    rw [show counted.reconcileBalances.2.internalPositions = reconciler.internalPositions from
      balances.internals, show counted.reconcileBalances.2.externalPositions =
        reconciler.externalPositions from balances.externals]
  · dsimp only [reconcileAll]
    split
    · rename_i calm
      have none_ : ∀ result ∈ counted.reconcileBalances.1 ++
          counted.reconcileBalances.2.reconcilePositions.1, ¬ result.status = .fatalDesync := by
        intro result member fatal
        exact List.filter_eq_nil_iff.mp calm result member (decide_eq_true fatal)
      rw [show counted.reconcileBalances.2.reconcilePositions.2.tradingHalted =
        reconciler.tradingHalted from positions.halted]
      constructor
      · exact .inl
      · rintro (halted | ⟨result, member, fatal⟩ | ⟨result, member, fatal⟩)
        · exact halted
        · exact absurd fatal (none_ result (List.mem_append_left _ member))
        · exact absurd fatal (none_ result (List.mem_append_right _ member))
    · rename_i found
      refine iff_of_true rfl (.inr ?_)
      obtain ⟨result, listed⟩ := List.exists_mem_of_ne_nil _ found
      obtain ⟨member, fatal⟩ := List.mem_filter.mp listed
      rcases List.mem_append.mp member with first | second
      · exact .inl ⟨result, first, of_decide_eq_true fatal⟩
      · exact .inr ⟨result, second, of_decide_eq_true fatal⟩

theorem someDrift_iff {ρ : Type} {kind : RecordKind ρ}
    {internals externals : Dict Venue (Dict String ρ)} {threshold fatal : ℚ}
    (fit : OneSidedFit kind internals externals threshold) (above : threshold ≤ fatal) :
    SomeDrift kind internals externals fatal ↔
      ExternalOnlyDrift kind internals externals fatal ∨
        TwoSidedDrift kind internals externals fatal := by
  constructor
  · rintro ⟨venue, name, drifts⟩
    have present : recordOf externals venue name ≠ none := by
      intro absent
      exact absurd ((fit venue name).1 absent) (not_lt.mpr (above.trans drifts))
    by_cases known : recordOf internals venue name = none
    · exact .inl ⟨venue, name, known, present, drifts⟩
    · exact .inr ⟨venue, name, known, present, drifts⟩
  · rintro (⟨venue, name, _, _, drifts⟩ | ⟨venue, name, _, _, drifts⟩)
    · exact ⟨venue, name, drifts⟩
    · exact ⟨venue, name, drifts⟩

theorem sized_balances {records : Dict Venue (Dict String BalanceRecord)}
    (nonneg : BalancesNonneg records) : Sized balanceKind records :=
  fun venue name record found => (abs_of_nonneg (nonneg venue name record found)).symm

theorem sized_positions (records : Dict Venue (Dict String PositionRecord)) :
    Sized positionKind records :=
  fun _ _ _ _ => rfl

theorem oneSidedFit_of_same {ρ : Type} {kind : RecordKind ρ}
    {internals externals : Dict Venue (Dict String ρ)} {threshold : ℚ} (positive : 0 < threshold)
    (same : ∀ venue name,
      recordOf internals venue name = none ↔ recordOf externals venue name = none) :
    OneSidedFit kind internals externals threshold := by
  intro venue name
  refine ⟨fun absent => ?_, fun unknown present => absurd ((same venue name).mp unknown) present⟩
  rw [keyDrift, (same venue name).mpr absent, absent]
  have none_ : drift (valueOf kind none) (valueOf kind none) = 0 := by
    unfold drift
    rw [sub_self, abs_zero, zero_div, zero_mul]
  rw [none_]
  exact positive

theorem halted_congr {oneSided twoSided otherSided bothSided halted : Prop} :
    ((oneSided ∨ twoSided) ∨ otherSided ∨ bothSided → halted ∨ twoSided ∨ bothSided) ↔
      (oneSided ∨ otherSided → halted ∨ twoSided ∨ bothSided) := by
  tauto

end Whole

/-- A reconciliation of balances that are not negative reports exactly the keys that drift, and
halts trading on every fatal drift, if and only if the keys on one side are covered. -/
theorem reconciles_iff (reconciler : CrossVenueReconciler)
    (positive : 0 < reconciler.driftThresholdPct)
    (internals : BalancesNonneg reconciler.internalBalances)
    (externals : BalancesNonneg reconciler.externalBalances) :
    Reconciles reconciler ↔ OneSidedCovered reconciler := by
  obtain ⟨first, second, frame, later, balances, positions, halts⟩ :=
    reconcileAll_parts reconciler
  have ofFirst := @reportsExactly_iff _ balanceKind first reconciler.internalBalances
    reconciler.externalBalances (frame.threshold ▸ positive) (sized_balances internals)
    (sized_balances externals)
  have fatalFirst := @fatal_iff _ balanceKind first reconciler.internalBalances
    reconciler.externalBalances (frame.threshold ▸ positive) (sized_balances internals)
    (sized_balances externals)
  have ofSecond := @reportsExactly_iff _ positionKind second reconciler.internalPositions
    reconciler.externalPositions (later.threshold ▸ positive) (sized_positions _)
    (sized_positions _)
  have fatalSecond := @fatal_iff _ positionKind second reconciler.internalPositions
    reconciler.externalPositions (later.threshold ▸ positive) (sized_positions _)
    (sized_positions _)
  unfold fatalDesyncThresholdPct at fatalFirst fatalSecond
  rw [frame.threshold, ← balances] at ofFirst fatalFirst
  rw [later.threshold, ← positions] at ofSecond fatalSecond
  have above : reconciler.driftThresholdPct ≤ reconciler.fatalDesyncThresholdPct := by
    unfold fatalDesyncThresholdPct
    linarith
  unfold Reconciles OneSidedCovered
  rw [halts, fatalFirst, fatalSecond, ofFirst, ofSecond]
  refine and_congr_right fun fitFirst => and_congr_right fun fitSecond => ?_
  rw [someDrift_iff fitFirst above, someDrift_iff fitSecond above]
  exact halted_congr

/-- A balance that the exchange has half of. -/
def halved : CrossVenueReconciler :=
  ((CrossVenueReconciler.new (1 / 10)).updateInternalBalance .binance "BTC" 2 0)
    |>.updateExternalBalance .binance "BTC" 1 0

/-- The missing half is reported and halts the trading. -/
theorem reconciles_halved : Reconciles halved := by
  have total : ∀ {amount : ℚ}, 0 ≤ amount → BalancesNonneg
      (putRecord .empty .binance "BTC" ⟨.binance, "BTC", amount, 0, amount + 0⟩) := by
    intro amount positive venue name record found
    rw [recordOf_putRecord] at found
    split at found
    · cases found
      exact add_nonneg positive le_rfl
    · exact absurd found (Option.some_ne_none record).symm
  have same : ∀ venue name, recordOf halved.internalBalances venue name = none ↔
      recordOf halved.externalBalances venue name = none := by
    intro venue name
    dsimp only [halved, updateInternalBalance, updateExternalBalance]
    rw [recordOf_putRecord, recordOf_putRecord]
    split
    · exact iff_of_false (Option.some_ne_none _) (Option.some_ne_none _)
    · exact Iff.rfl
  refine (reconciles_iff halved (by decide +kernel) (total (by decide)) (total (by decide))).mpr
    ⟨oneSidedFit_of_same (by decide +kernel) same, oneSidedFit_of_same (by decide +kernel)
      (fun _ _ => Iff.rfl), ?_⟩
  rintro (⟨venue, name, unknown, present, _⟩ | ⟨venue, name, _, present, _⟩)
  · exact absurd ((same venue name).mp unknown) present
  · exact absurd rfl present

/-- A balance that the exchange does not list at all. -/
def lost : CrossVenueReconciler :=
  (CrossVenueReconciler.new (1 / 10)).updateInternalBalance .binance "BTC" 1 0

/-- A balance that the exchange does not list is neither reported nor a reason to halt. -/
theorem lost_not_reconciled : ¬ Reconciles lost := by
  rintro ⟨_, _, halts⟩
  have halted := halts (.inl ⟨.binance, "BTC", by decide +kernel⟩)
  exact absurd halted (by decide)

end ReconcileExact

end TradingBot.Venues
