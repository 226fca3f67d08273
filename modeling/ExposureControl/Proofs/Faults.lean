import ExposureControl.Proofs.ArenaStep
import ExposureControl.Proofs.PullLog

/-!
# What stops a step

A step is a fault for one of four causes: the clock leaves the representable years, a clip has no
range, the time up to which something is dropped cannot be represented, or a counter is full.
-/

namespace ExposureControl

variable {fault : Fault}

/-! ## Full counters -/

/-- A count of a registry has no room for one more. -/
inductive Registry.Full (registry : Registry) : Prop
  | pulls {id : ObjectId} {arm : Arm} (hfound : registry.arms.find? id = some arm)
      (hfull : Word64.size ≤ arm.stats.pulls + 1)
  | observations {id : ObjectId} {arm : Arm} (hfound : registry.arms.find? id = some arm)
      (hfull : Word64.size ≤ arm.stats.observations + 1)
  | total {symbol : String} {now : Instant}
      (hfull : Word64.size ≤ (registry.ledgerOn symbol now).total + 1)
  | candidates {symbol : String} {now : Instant}
      (hfull : Word64.size ≤ (registry.ledgerOn symbol now).candidates + 1)

/-- An open position was closed too often before to be closed once more. -/
def Shadow.Book.Full (book : Shadow.Book) : Prop :=
  ∃ symbol, ∃ position ∈ book.ofSymbol symbol,
    position.isOpen = true ∧ Counter.halfWordSize ≤ position.trades + 1

theorem Counter.fullWord_eq_error_iff {count : Nat} :
    fullWord count = .error fault ↔ fault = .counterOverflow ∧ Word64.size ≤ count := by
  by_cases hroom : count < Word64.size
  · rw [fullWord_of_lt hroom]
    exact ⟨nofun, fun h => absurd hroom (Nat.not_lt.mpr h.2)⟩
  · rw [fullWord_of_le (Nat.not_lt.mp hroom)]
    exact ⟨fun h => ⟨(Except.error.inj h).symm, Nat.not_lt.mp hroom⟩, fun h => h.1 ▸ rfl⟩

theorem Stats.full_of_registerPull {stats : Stats} {halfLife : Span} {now : Instant}
    (hregister : stats.registerPull halfLife now = .error fault) :
    fault = .counterOverflow ∧ Word64.size ≤ stats.pulls + 1 :=
  Counter.fullWord_eq_error_iff.mp (Fault.eq_error_of_bind hregister)

theorem Stats.full_of_recordReward {stats : Stats} {reward : Float} {halfLife : Span}
    {now : Instant} (hrecord : stats.recordReward reward halfLife now = .error fault) :
    fault = .counterOverflow ∧ Word64.size ≤ stats.observations + 1 := by
  unfold recordReward at hrecord
  split at hrecord
  · exact Counter.fullWord_eq_error_iff.mp (Fault.eq_error_of_bind hrecord)
  · cases hrecord

namespace Registry

variable {registry : Registry}

theorem full_of_logPull {id : ObjectId} {context : Context} {decision : DecisionId}
    {halfLife : Span} {now : Instant}
    (hlog : registry.logPull id context decision halfLife now = .error fault) :
    fault = .counterOverflow ∧ registry.Full := by
  unfold logPull at hlog
  split at hlog
  · cases hlog
  · next arm hfound =>
    have hstats := Fault.eq_error_of_bind hlog
    exact (Stats.full_of_registerPull hstats).imp_right (.pulls hfound)

theorem full_of_applyReward {decision : DecisionId} {outcome : Outcome} {halfLife : Span}
    {now : Instant}
    (happly : registry.applyReward decision outcome halfLife now = .error fault) :
    fault = .counterOverflow ∧ registry.Full := by
  unfold applyReward at happly
  split at happly
  · cases happly
  · split at happly
    · cases happly
    · dsimp only at happly
      split at happly
      · cases happly
      · next arm hfound =>
        have hstats := Fault.eq_error_of_bind happly
        exact (Stats.full_of_recordReward hstats).imp_right (.observations hfound)

theorem full_of_charge {symbol : String} {candidate : Bool} {now : Instant}
    (hcharge : (registry.ledgerOn symbol now).charge candidate = .error fault) :
    fault = .counterOverflow ∧ registry.Full := by
  obtain htotal | ⟨_, -, hrest⟩ := Fault.bind_eq_error_iff.mp hcharge
  · exact (Counter.fullWord_eq_error_iff.mp htotal).imp_right .total
  · cases candidate with
    | false => cases hrest
    | true =>
      have hcandidates := Fault.eq_error_of_bind hrest
      exact (Counter.fullWord_eq_error_iff.mp hcandidates).imp_right .candidates

theorem charge_of_chargeLedger {symbol : String} {candidate : Bool} {now : Instant}
    (hcharge : registry.chargeLedger symbol candidate now = .error fault) :
    (registry.ledgerOn symbol now).charge candidate = .error fault :=
  Fault.eq_error_of_bind hcharge

end Registry

namespace Arena

variable {arena : Arena} {settings : Settings.Selection} {now : Instant}

theorem full_of_commit {symbol : String} {arm : Arm} {context : Context}
    (hcommit : arena.commit settings now symbol arm context = .error fault) :
    fault = .counterOverflow ∧ arena.registry.Full := by
  obtain hlog | ⟨⟨registry, logged⟩, hlog, hrest⟩ := Fault.bind_eq_error_iff.mp hcommit
  · exact Registry.full_of_logPull hlog
  · cases logged with
    | error refusal => cases hrest
    | ok pull =>
      have hledger := Registry.charge_of_chargeLedger (Fault.eq_error_of_bind hrest)
      -- the charge reads the ledgers as they were before the pull was logged
      rw [Registry.ledgerOn, Registry.ledgers_logPull hlog] at hledger
      exact Registry.full_of_charge hledger

theorem full_of_select {seeding : Seeding} {contest : Contest} {context : Context}
    (hselect : arena.select settings seeding now contest context = .error fault) :
    fault = .counterOverflow ∧ arena.registry.Full := by
  unfold select at hselect
  split at hselect
  · cases hselect
  · dsimp only at hselect
    split at hselect
    · cases hselect
    · split at hselect
      · cases hselect
      · -- choosing draws numbers and leaves the registry as it is
        have hfull := full_of_commit hselect
        exact hfull

theorem full_of_recordOutcome {decision : DecisionId} {outcome : Outcome}
    (hrecord : arena.recordOutcome settings now decision outcome = .error fault) :
    fault = .counterOverflow ∧ arena.registry.Full := by
  unfold recordOutcome at hrecord
  split at hrecord
  · cases hrecord
  · have htry := Fault.eq_error_of_bind hrecord
    exact Registry.full_of_applyReward (Fault.eq_error_of_bind htry)

end Arena

theorem Shadow.Engine.full_of_priceTick {settings : Settings.Shadow} {symbol : String}
    {price : Float} {now : Instant} {engine : Engine}
    (htick : engine.priceTick settings symbol price now = .error fault) :
    fault = .counterOverflow ∧ engine.book.Full := by
  unfold priceTick at htick
  split at htick
  · have htrigger := Fault.eq_error_of_bind htick
    unfold Book.trigger at htrigger
    split at htrigger
    · cases htrigger
    · next positions hfound =>
      dsimp only at htrigger
      split at htrigger
      · cases htrigger
      · next hcountable =>
        simp only [List.all_eq_true, not_forall] at hcountable
        obtain ⟨position, hclosing, hfull⟩ := hcountable
        obtain ⟨hposition, hcloses⟩ := List.mem_filter.mp hclosing
        refine ⟨(Except.error.inj htrigger).symm, symbol, position, ?_,
          (Bool.and_eq_true_iff.mp hcloses).1, ?_⟩
        · rwa [Book.ofSymbol, hfound]
        · simpa [Position.countable] using hfull
  · cases htick

/-! ## Times that cannot be represented -/

namespace Governor

variable {governor : Governor} {command : Command}

/-- How far back the components look when they drop what is old. -/
def retentions (governor : Governor) : List (Except Fault Span) :=
  [.ok governor.costs.history.retention, Span.minutes governor.settings.costs.pendingMinutes,
    Span.days governor.settings.drift.retentionDays,
    Span.days governor.settings.shadow.closedRetentionDays,
    Span.days governor.settings.selection.pullRetentionDays]

/-- Why a step is a fault. -/
inductive StoppedBy (governor : Governor) (command : Command) (fault : Fault) : Prop
  /-- The clock cannot be moved by that much. -/
  | clock {span : Span} (hcommand : command = .advance span)
      (hmove : governor.clock.after span = .error fault)
  /-- A profit has no range to be clipped to. -/
  | clip {profit slippage fees : Option Float}
      (hshape : Outcome.ofTrade governor.settings.selection.reward profit slippage fees =
        .error fault)
  /-- The time up to which something old is dropped cannot be represented. -/
  | cutoff {now : Instant} {retention : Except Fault Span}
      (hnow : now = governor.clock ∨ command = .pruneExpired now)
      (hretention : retention ∈ governor.retentions)
      (hcutoff : retention >>= now.before = .error fault)
  /-- A count has no room for one more. -/
  | counter (hfault : fault = .counterOverflow)
      (hfull : governor.registry.Full ∨ governor.shadow.book.Full)

theorem StoppedBy.of_arena (hfull : fault = .counterOverflow ∧ governor.registry.Full) :
    governor.StoppedBy command fault :=
  .counter hfull.1 (.inl hfull.2)

theorem tryArena_eq_error_iff {α : Type} {change : Arena → Except Fault (Arena × α)} :
    governor.tryArena change = .error fault ↔ change governor.arena = .error fault := by
  refine ⟨fun htry => Fault.eq_error_of_bind htry, fun hchange => ?_⟩
  exact Fault.bind_eq_error_iff.mpr (.inl hchange)

theorem tryRegistry_eq_error_iff {α : Type}
    {change : Registry → Except Fault (Registry × α)} :
    governor.tryRegistry change = .error fault ↔ change governor.registry = .error fault := by
  rw [tryRegistry, tryArena_eq_error_iff]
  refine ⟨fun htry => Fault.eq_error_of_bind htry, fun hchange => ?_⟩
  exact Fault.bind_eq_error_iff.mpr (.inl hchange)

theorem cutoff_of_fill {order : String} {price : Float} {spread : Option Float}
    {filledAt : Option Instant} (hfill : governor.fill order price spread filledAt = .error fault) :
    governor.clock.before governor.costs.history.retention = .error fault := by
  have hdesk := Fault.eq_error_of_bind hfill
  unfold Costs.Desk.fill at hdesk
  split at hdesk
  · split at hdesk
    · cases hdesk
    · dsimp only at hdesk
      split at hdesk
      · cases hdesk
      · have happend := Fault.eq_error_of_bind hdesk
        exact Fault.eq_error_of_bind happend
  · cases hdesk

theorem error_of_lookBack {α : Type} {retention : Except Fault Span} {now : Instant}
    {rest : Instant → Except Fault α}
    (hfault : (retention >>= fun span => now.before span >>= rest) = .error fault) :
    retention >>= now.before = .error fault ∨ ∃ cutoff, rest cutoff = .error fault := by
  simp only [Fault.bind_eq_error_iff] at hfault ⊢
  obtain hspan | ⟨span, hspan, hcutoff | ⟨cutoff, -, hrest⟩⟩ := hfault
  · exact .inl (.inl hspan)
  · exact .inl (.inr ⟨span, hspan, hcutoff⟩)
  · exact .inr ⟨cutoff, hrest⟩

theorem cutoff_of_pruneExpired {now : Instant} (hprune : governor.pruneExpired now = .error fault) :
    ∃ retention ∈ governor.retentions, retention >>= now.before = .error fault := by
  obtain hcosts | ⟨_, -, hprune⟩ := Fault.bind_eq_error_iff.mp hprune
  · obtain hhistory | ⟨_, -, hpending⟩ := Fault.bind_eq_error_iff.mp hcosts
    · exact ⟨.ok governor.costs.history.retention, by simp [retentions],
        Fault.eq_error_of_bind hhistory⟩
    · obtain hcutoff | ⟨_, hdone⟩ := error_of_lookBack hpending
      · exact ⟨_, by simp [retentions], hcutoff⟩
      · cases hdone
  obtain hmonitor | ⟨_, -, hprune⟩ := Fault.bind_eq_error_iff.mp hprune
  · obtain hcutoff | ⟨_, hdone⟩ := error_of_lookBack hmonitor
    · exact ⟨_, by simp [retentions], hcutoff⟩
    · cases hdone
  obtain hshadow | ⟨_, -, hprune⟩ := Fault.bind_eq_error_iff.mp hprune
  · obtain hcutoff | ⟨_, hdone⟩ := error_of_lookBack hshadow
    · exact ⟨_, by simp [retentions], hcutoff⟩
    · cases hdone
  obtain hcutoff | ⟨_, hdone⟩ := error_of_lookBack hprune
  · exact ⟨_, by simp [retentions], hcutoff⟩
  · cases hdone

/-- Every fault of a step has one of the causes. -/
theorem stoppedBy_of_step (hstep : governor.step command = .error fault) :
    governor.StoppedBy command fault := by
  cases command with
  | advance span =>
    have hadvance := Fault.eq_error_of_bind hstep
    exact .clock rfl (Fault.eq_error_of_bind hadvance)
  | select contest context =>
    have hselect := Fault.eq_error_of_bind hstep
    exact .of_arena (Arena.full_of_select (tryArena_eq_error_iff.mp hselect))
  | recordOutcome decision outcome =>
    have hrecord := Fault.eq_error_of_bind hstep
    exact .of_arena (Arena.full_of_recordOutcome (tryArena_eq_error_iff.mp hrecord))
  | recordTrade decision profit slippage fees =>
    have htrade := Fault.eq_error_of_bind hstep
    obtain hshape | ⟨outcome, -, hrecord⟩ := Fault.bind_eq_error_iff.mp htrade
    · exact .clip hshape
    · exact .of_arena (Arena.full_of_recordOutcome (tryArena_eq_error_iff.mp hrecord))
  | logPull arm decision context halfLife time =>
    have hlog := Fault.eq_error_of_bind hstep
    exact .of_arena (Registry.full_of_logPull (tryRegistry_eq_error_iff.mp hlog))
  | applyReward decision outcome halfLife time =>
    have happly := Fault.eq_error_of_bind hstep
    exact .of_arena (Registry.full_of_applyReward (tryRegistry_eq_error_iff.mp happly))
  | chargeLedger symbol candidate time =>
    have htry := Fault.eq_error_of_bind hstep
    have hmap := tryRegistry_eq_error_iff.mp htry
    cases hcharge : governor.registry.chargeLedger symbol candidate time with
    | ok charged => simp [hcharge, Except.map] at hmap
    | error cause =>
      simp only [hcharge, Except.map, Except.error.injEq] at hmap
      obtain rfl := hmap
      exact .of_arena (Registry.full_of_charge (Registry.charge_of_chargeLedger hcharge))
  | fill order price spread filledAt =>
    have hfill := Fault.eq_error_of_bind hstep
    exact .cutoff (.inl rfl) List.mem_cons_self (cutoff_of_fill hfill)
  | priceTick symbol price =>
    have htick := Fault.eq_error_of_bind hstep
    have hengine := Fault.eq_error_of_bind htick
    obtain ⟨hfault, hfull⟩ := Shadow.Engine.full_of_priceTick hengine
    exact .counter hfault (.inr hfull)
  | pruneExpired now =>
    have hprune := Fault.eq_error_of_bind hstep
    obtain ⟨retention, hretention, hcutoff⟩ := cutoff_of_pruneExpired hprune
    exact .cutoff (.inr rfl) hretention hcutoff
  | _ => cases hstep

end Governor

end ExposureControl
