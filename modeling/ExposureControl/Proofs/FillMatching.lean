import ExposureControl.Proofs.DeskRun

/-!
# Matching fills to submissions

An order waits for its fill from its latest submission on, until a fill at a finite price ends the
wait or a prune forgets it.  A fill is matched to the submission that waits, and takes everything
that it does not bring itself from there.
-/

namespace ExposureControl

/-! ## Orders on the books of the desk -/

namespace Binary64

theorem finiteOf?_eq_some_iff {x : Option Float} {value : Float} :
    finiteOf? x = some value ↔ x = some value ∧ value.isFinite = true := by
  unfold finiteOf? finite?
  cases x with
  | none => simp
  | some y =>
    rw [Option.bind_some, Option.some.injEq]
    split
    · next hfinite =>
      rw [Option.some.injEq]
      exact ⟨fun heq => ⟨heq, heq ▸ hfinite⟩, And.left⟩
    · next hinfinite =>
      simp only [reduceCtorEq, false_iff, not_and]
      exact fun heq => heq ▸ hinfinite

end Binary64

theorem Table.mem_keys_iff {κ ν : Type} [DecidableEq κ] (table : Table κ ν) (key : κ) :
    key ∈ table.keys ↔ ∃ value, table.find? key = some value := by
  simp [Table.keys, ← Table.mem_entries_iff]

namespace Costs

namespace Submission

def pending (submission : Submission) (submittedAt : Instant) : PendingOrder where
  symbol := submission.symbol
  side := submission.side
  orderType := submission.orderType
  referencePrice := Binary64.finiteOf? submission.referencePrice
  dailyVolume := Binary64.finiteOf? submission.dailyVolume
  averageRange := Binary64.finiteOf? submission.averageRange
  submittedAt

/-- The sample of a submission that is filled, with its reference price.  Market data that is not
finite counts as absent. -/
def sample (submission : Submission) (submittedAt : Instant) (reference price : Float)
    (spread : Option Float) (filledAt : Instant) : Sample where
  symbol := submission.symbol
  side := submission.side
  orderType := submission.orderType
  filledAt
  slippage := slippageOf submission.side reference price
  queueMillis := (filledAt.since submittedAt).wholeMillis
  referencePrice := reference
  fillPrice := price
  dailyVolume := Binary64.finiteOf? submission.dailyVolume
  averageRange := Binary64.finiteOf? submission.averageRange
  spread := Binary64.finiteOf? spread

variable {submission : Submission} {submittedAt : Instant} {reference : Float}

/-- A waiting order can be sampled with the reference price of its submission if that is finite and
positive. -/
theorem usableReference?_pending :
    Desk.usableReference? (submission.pending submittedAt) = some reference ↔
      submission.referencePrice = some reference ∧ reference.isFinite = true ∧
        0.0 < reference := by
  rw [Desk.usableReference?, Option.filter_eq_some_iff, decide_eq_true_eq]
  dsimp only [pending]
  rw [Binary64.finiteOf?_eq_some_iff, and_assoc]

end Submission

/-! ## What one call does to one order -/

namespace Call

variable (settings : Settings.Costs) (order : String)

/-- Whether a call submits an order, with a submission that counts from a time. -/
def Submits (submission : Submission) (submittedAt : Instant) (call : Call) : Prop :=
  ∃ now, call = .submit submission now ∧ submission.order = some order ∧
    submission.submittedAt.getD now = submittedAt

/-- Whether a call fills an order at a finite price. -/
def fills : Call → Bool
  | .fill filled price .. => filled = order && price.isFinite
  | _ => false

/-- Whether a call leaves an order waiting as it was submitted at a time: it does not submit it
again, it does not fill it at a finite price, and it does not prune it. -/
def spares (submittedAt : Instant) : Call → Bool
  | .submit submission _ => submission.order ≠ some order
  | .fill filled price .. => !(filled = order && price.isFinite)
  | .prune now =>
    match pendingCutoff settings now with
    | .ok cutoff => cutoff ≤ submittedAt
    | .error _ => true

namespace Submits

variable {settings : Settings.Costs} {order : String} {call : Call}
  {submission other : Submission} {submittedAt time : Instant}

theorem unique (hsubmits : call.Submits order submission submittedAt) {named : String}
    (hother : call.Submits named other time) :
    submission = other ∧ submittedAt = time ∧ order = named := by
  obtain ⟨now, rfl, horder, rfl⟩ := hsubmits
  obtain ⟨_, hcall, hnamed, rfl⟩ := hother
  obtain ⟨rfl, rfl⟩ := Call.submit.inj hcall
  exact ⟨rfl, rfl, Option.some.inj (horder.symm.trans hnamed)⟩

theorem not_spares (hsubmits : call.Submits order submission submittedAt) :
    call.spares settings order time = false := by
  obtain ⟨now, rfl, horder, -⟩ := hsubmits
  simp [spares, horder]

end Submits

section

variable {settings : Settings.Costs} {order : String} {call : Call} {submission : Submission}
  {submittedAt : Instant}

theorem not_spares_of_fills (hfills : call.fills order = true) :
    call.spares settings order submittedAt = false := by
  unfold fills at hfills
  split at hfills
  · rw [spares, hfills, Bool.not_true]
  · cases hfills

theorem fills_unique {other : String} (hfills : call.fills order = true)
    (hother : call.fills other = true) : order = other := by
  cases call with
  | fill filled price spread filledAt now =>
    simp only [fills, Bool.and_eq_true, decide_eq_true_eq] at hfills hother
    exact hfills.1.symm.trans hother.1
  | submit _ _ | prune _ => cases hfills

theorem not_submits_of_fills (hfills : call.fills order = true) (submission : Submission)
    (submittedAt : Instant) : ¬ call.Submits order submission submittedAt := by
  rintro ⟨now, rfl, -, -⟩
  cases hfills

end

end Call

section

variable {settings : Settings.Costs} {order : String} {call : Call} {answer : Answer}
  {desk next : Desk} {submission : Submission} {submittedAt : Instant}

theorem find?_pending_of_submits (henabled : settings.enabled = true)
    (hsubmits : call.Submits order submission submittedAt)
    (hperform : desk.perform settings call = .ok (next, answer)) :
    next.pending.find? order = some (submission.pending submittedAt) := by
  obtain ⟨now, rfl, horder, rfl⟩ := hsubmits
  simp only [Desk.perform, Except.ok.injEq, Prod.mk.injEq] at hperform
  rw [← hperform.1, Desk.submit, henabled, horder]
  exact Table.find?_insert_self _ _ _

/-- A fill at a finite price takes its order off the books, whatever comes of it. -/
theorem FillStep.find?_pending {filled : String} {price : Float} {spread : Option Float}
    {filledAt : Option Instant} {now : Instant} {sample? : Option Sample}
    (hstep : FillStep settings filled price spread filledAt now desk next sample?)
    (henabled : settings.enabled = true) :
    next.pending.find? order =
      if filled = order && price.isFinite then none else desk.pending.find? order := by
  have herased : (settings.enabled && price.isFinite) = true →
      (desk.pending.erase filled).find? order =
        if filled = order && price.isFinite then none else desk.pending.find? order := by
    intro hacted
    rw [Table.find?_erase, (Bool.and_eq_true_iff.mp hacted).2, Bool.and_true]
    exact ite_congr (propext (eq_comm.trans decide_eq_true_iff.symm)) (fun _ => rfl) fun _ => rfl
  cases hstep with
  | unusable hacted _ _ => exact herased hacted
  | sampled hacted _ _ _ => exact herased hacted
  | idle hidle =>
    split
    · next hfilled =>
      rw [Bool.and_eq_true, decide_eq_true_eq] at hfilled
      obtain ⟨rfl, hfinite⟩ := hfilled
      apply hidle.resolve_left
      rw [henabled, hfinite]
      decide
    · rfl

theorem filter_const {α : Type} (keep : Bool) (value? : Option α) :
    (value?.filter fun _ => keep) = if keep then value? else none := by
  cases value? <;> cases keep <;> rfl

/-- A call that does not submit an order leaves it waiting if it spares it. -/
theorem find?_pending_of_not_submits (henabled : settings.enabled = true)
    (hsubmits : ∀ submission submittedAt, ¬ call.Submits order submission submittedAt)
    (hperform : desk.perform settings call = .ok (next, answer)) :
    next.pending.find? order = (desk.pending.find? order).filter fun waiting =>
      call.spares settings order waiting.submittedAt := by
  cases call with
  | submit submission now =>
    have hother : submission.order ≠ some order := fun horder =>
      hsubmits submission _ ⟨now, rfl, horder, rfl⟩
    simp only [Desk.perform, Except.ok.injEq, Prod.mk.injEq] at hperform
    rw [← hperform.1, Desk.submit, henabled]
    dsimp only [Call.spares]
    rw [filter_const, if_pos (decide_eq_true hother)]
    cases hname : submission.order with
    | none => rfl
    | some named =>
      have hne : order ≠ named := fun hsame => hother (hname.trans (congrArg some hsame.symm))
      exact Table.find?_insert_of_ne hne
  | fill filled price spread filledAt now =>
    simp only [Desk.perform, Fault.bind_eq_ok_iff, Fault.pure_eq_ok_iff, Prod.mk.injEq,
      Prod.exists] at hperform
    obtain ⟨_, sample, hfill, rfl, -⟩ := hperform
    rw [(Desk.fillStep_of_fill hfill).find?_pending henabled]
    dsimp only [Call.spares]
    rw [filter_const]
    cases decide (filled = order) && price.isFinite <;> rfl
  | prune now =>
    simp only [Desk.perform, Desk.pruneExpired, Fault.bind_eq_ok_iff, Fault.pure_eq_ok_iff,
      Prod.mk.injEq, Prod.exists] at hperform
    obtain ⟨_, _, ⟨_, _, -, span, hspan, cutoff, hcutoff, rfl, -⟩, rfl, -⟩ := hperform
    have hlimit : pendingCutoff settings now = .ok cutoff :=
      Fault.bind_eq_ok_iff.mpr ⟨span, hspan, hcutoff⟩
    simp only [Call.spares, hlimit]
    exact Table.find?_filter _ _ _

/-! ## The submission that waits -/

/-- Whether a submission, which counts from a time, waits under an order after events, the newest of
which stands first: it is one of the events, and all later ones spare it. -/
def Waits (settings : Settings.Costs) (order : String) (events : List Event)
    (submission : Submission) (submittedAt : Instant) : Prop :=
  ∃ since submitting earlier, events = since ++ submitting :: earlier ∧
    submitting.call.Submits order submission submittedAt ∧
    ∀ event ∈ since, event.call.spares settings order submittedAt = true

theorem waits_cons_of_submits {event : Event} {events : List Event} {other : Submission}
    {time : Instant} (hsubmits : event.call.Submits order submission submittedAt) :
    Waits settings order (event :: events) other time ↔
      other = submission ∧ time = submittedAt := by
  constructor
  · rintro ⟨since, submitting, earlier, hevents, hother, hspared⟩
    cases since with
    | nil =>
      obtain ⟨rfl, -⟩ := List.cons.inj hevents
      obtain ⟨hsame, htime, -⟩ := hother.unique hsubmits
      exact ⟨hsame, htime⟩
    | cons first since =>
      -- a later submission does not spare an earlier one
      obtain ⟨rfl, -⟩ := List.cons.inj hevents
      have hspare := hspared event List.mem_cons_self
      rw [hsubmits.not_spares] at hspare
      cases hspare
  · rintro ⟨rfl, rfl⟩
    exact ⟨[], event, events, rfl, hsubmits, fun _ hnone => nomatch hnone⟩

/-- Another call keeps the submissions waiting that it spares. -/
theorem waits_cons_of_not_submits {event : Event} {events : List Event}
    (hsubmits : ∀ submission submittedAt, ¬ event.call.Submits order submission submittedAt) :
    Waits settings order (event :: events) submission submittedAt ↔
      Waits settings order events submission submittedAt ∧
        event.call.spares settings order submittedAt = true := by
  constructor
  · rintro ⟨since, submitting, earlier, hevents, hmade, hspared⟩
    cases since with
    | nil =>
      obtain ⟨rfl, -⟩ := List.cons.inj hevents
      exact absurd hmade (hsubmits submission submittedAt)
    | cons first since =>
      obtain ⟨rfl, hrest⟩ := List.cons.inj hevents
      obtain ⟨hspare, hlater⟩ := List.forall_mem_cons.mp hspared
      exact ⟨⟨since, submitting, earlier, hrest, hmade, hlater⟩, hspare⟩
  · rintro ⟨⟨since, submitting, earlier, rfl, hmade, hspared⟩, hspare⟩
    exact ⟨event :: since, submitting, earlier, rfl, hmade,
      List.forall_mem_cons.mpr ⟨hspare, hspared⟩⟩

/-- The books hold exactly the submissions that wait. -/
theorem find?_pending_iff {start : Desk} {events : List Event} (henabled : settings.enabled = true)
    (hstart : start.pending = .empty)
    (htrace : Trace (Desk.perform settings) start events desk) {waiting : PendingOrder} :
    desk.pending.find? order = some waiting ↔
      ∃ submission submittedAt, Waits settings order events submission submittedAt ∧
        submission.pending submittedAt = waiting := by
  induction htrace generalizing waiting with
  | start =>
    rw [hstart, Table.find?_empty]
    constructor
    · rintro ⟨⟩
    · rintro ⟨_, _, ⟨since, _, _, hevents, -⟩, -⟩
      cases since <;> cases hevents
  | @event events before next call answer past done ih =>
    by_cases hcall : ∃ submission submittedAt, call.Submits order submission submittedAt
    · obtain ⟨submission, submittedAt, hsubmits⟩ := hcall
      rw [find?_pending_of_submits henabled hsubmits done, Option.some.injEq]
      constructor
      · rintro rfl
        exact ⟨submission, submittedAt, (waits_cons_of_submits hsubmits).mpr ⟨rfl, rfl⟩, rfl⟩
      · rintro ⟨other, time, hwaits, rfl⟩
        obtain ⟨rfl, rfl⟩ := (waits_cons_of_submits hsubmits).mp hwaits
        rfl
    · simp only [not_exists] at hcall
      rw [find?_pending_of_not_submits henabled hcall done, Option.filter_eq_some_iff, ih]
      constructor
      · rintro ⟨⟨submission, submittedAt, hwaits, rfl⟩, hspares⟩
        exact ⟨submission, submittedAt, (waits_cons_of_not_submits hcall).mpr ⟨hwaits, hspares⟩,
          rfl⟩
      · rintro ⟨submission, submittedAt, hwaits, rfl⟩
        obtain ⟨hbefore, hspares⟩ := (waits_cons_of_not_submits hcall).mp hwaits
        exact ⟨⟨submission, submittedAt, hbefore, rfl⟩, hspares⟩

/-- After a fill at a finite price its order does not wait until it is submitted again. -/
theorem not_waits_of_fills {since earlier : List Event} {filling : Event}
    (hfills : filling.call.fills order = true)
    (hsince : ∀ event ∈ since, ∀ submission submittedAt,
      ¬ event.call.Submits order submission submittedAt) (submission : Submission)
    (submittedAt : Instant) :
    ¬ Waits settings order (since ++ filling :: earlier) submission submittedAt := by
  induction since with
  | nil =>
    intro hwaits
    have hspares := ((waits_cons_of_not_submits (Call.not_submits_of_fills hfills)).mp hwaits).2
    rw [Call.not_spares_of_fills hfills] at hspares
    cases hspares
  | cons event since ih =>
    obtain ⟨hevent, hrest⟩ := List.forall_mem_cons.mp hsince
    intro hwaits
    exact ih hrest ((waits_cons_of_not_submits hevent).mp hwaits).1

/-! ## Fills -/

/-- A fill at a finite price of an order that waits gives a sample exactly if the reference price of
the order is usable. -/
theorem FillStep.sample?_eq {price : Float} {spread : Option Float} {filledAt : Option Instant}
    {now : Instant} {sample? : Option Sample}
    (hstep : FillStep settings order price spread filledAt now desk next sample?)
    (hacted : (settings.enabled && price.isFinite) = true) :
    sample? = (desk.pending.find? order).bind fun waiting =>
      (Desk.usableReference? waiting).map fun reference =>
        Desk.sampleOf waiting reference price spread (filledAt.getD now) := by
  cases hstep with
  | idle hidle =>
    have hunknown := hidle.resolve_left (by rw [hacted]; decide)
    rw [hunknown, Option.bind_none]
  | unusable _ hwaiting hreference =>
    rw [hwaiting, Option.bind_some, hreference, Option.map_none]
  | sampled _ hwaiting hreference _ =>
    rw [hwaiting, Option.bind_some, hreference, Option.map_some]

end

/-- Whether a fill takes the order of a submission off the books, where `between` are the events
after the submission and before the fill. -/
def Ends (settings : Settings.Costs) (filling : Event) (between : List Event)
    (submitting : Event) : Prop :=
  ∃ order submission submittedAt, submitting.call.Submits order submission submittedAt ∧
    filling.call.fills order = true ∧
    ∀ event ∈ between, event.call.spares settings order submittedAt = true

section

variable {settings : Settings.Costs} {submitting filling other : Event}
  {between between' : List Event}

theorem Ends.not_mem (hends : Ends settings filling between submitting)
    (hother : Ends settings other between' submitting) : other ∉ between := by
  intro hmem
  obtain ⟨order, submission, submittedAt, hsubmits, -, hspared⟩ := hends
  obtain ⟨named, _, _, hnamed, hfills, -⟩ := hother
  obtain ⟨-, -, rfl⟩ := hsubmits.unique hnamed
  have hspare := hspared other hmem
  rw [Call.not_spares_of_fills hfills] at hspare
  cases hspare

theorem Ends.unique {newer newer' : List Event}
    (hsplit : newer ++ filling :: between = newer' ++ other :: between')
    (hends : Ends settings filling between submitting)
    (hother : Ends settings other between' submitting) : newer = newer' := by
  cases List.append_eq_append_iff.mp hsplit with
  | inl hlonger =>
    obtain ⟨rest, rfl, hrest⟩ := hlonger
    cases rest with
    | nil => rw [List.append_nil]
    | cons first rest =>
      obtain ⟨-, rfl⟩ := List.cons.inj hrest
      exact absurd (List.mem_append_right rest List.mem_cons_self) (hends.not_mem hother)
  | inr hshorter =>
    obtain ⟨rest, rfl, hrest⟩ := hshorter
    cases rest with
    | nil => rw [List.append_nil]
    | cons first rest =>
      obtain ⟨-, rfl⟩ := List.cons.inj hrest
      exact absurd (List.mem_append_right rest List.mem_cons_self) (hother.not_mem hends)

/-- A fill at a finite price finds its order on the books exactly if it ends the wait of a
submission. -/
theorem exists_pending_iff_ends {order : String} {start desk : Desk} {older : List Event}
    (henabled : settings.enabled = true) (hstart : start.pending = .empty)
    (htrace : Trace (Desk.perform settings) start older desk)
    (hfills : filling.call.fills order = true) :
    (∃ waiting, desk.pending.find? order = some waiting) ↔
      ∃ between submitting earlier, older = between ++ submitting :: earlier ∧
        Ends settings filling between submitting := by
  constructor
  · rintro ⟨waiting, hwaiting⟩
    obtain ⟨submission, submittedAt, hwaits, -⟩ :=
      (find?_pending_iff henabled hstart htrace).mp hwaiting
    obtain ⟨between, submitting, earlier, rfl, hsubmits, hspared⟩ := hwaits
    exact ⟨between, submitting, earlier, rfl, order, submission, submittedAt, hsubmits, hfills,
      hspared⟩
  · rintro ⟨between, submitting, earlier, rfl, named, submission, submittedAt, hsubmits, hnamed,
      hspared⟩
    obtain rfl := Call.fills_unique hfills hnamed
    exact ⟨_, (find?_pending_iff henabled hstart htrace).mpr
      ⟨submission, submittedAt, ⟨between, submitting, earlier, rfl, hsubmits, hspared⟩, rfl⟩⟩

/-- A fill at a finite price gives a sample of the submission that waits, if its reference price is
finite and positive. -/
theorem sample?_eq_some_iff {start desk next : Desk} {events : List Event} {order : String}
    {price : Float} {spread : Option Float} {filledAt : Option Instant} {now : Instant}
    {sample? : Option Sample} (henabled : settings.enabled = true)
    (hstart : start.pending = .empty) (htrace : Trace (Desk.perform settings) start events desk)
    (hfinite : price.isFinite = true)
    (hperform : desk.perform settings (.fill order price spread filledAt now) =
      .ok (next, .filled sample?)) (sample : Sample) :
    sample? = some sample ↔ ∃ submission submittedAt reference,
      Waits settings order events submission submittedAt ∧
        submission.referencePrice = some reference ∧ reference.isFinite = true ∧
        0.0 < reference ∧
        sample = submission.sample submittedAt reference price spread (filledAt.getD now) := by
  simp only [Desk.perform, Fault.bind_eq_ok_iff, Fault.pure_eq_ok_iff, Prod.mk.injEq,
    Prod.exists, Answer.filled.injEq] at hperform
  obtain ⟨_, _, hfill, -, rfl⟩ := hperform
  rw [(Desk.fillStep_of_fill hfill).sample?_eq (by rw [henabled, hfinite]; rfl)]
  simp only [Option.bind_eq_some_iff, Option.map_eq_some_iff]
  constructor
  · rintro ⟨waiting, hwaiting, reference, hreference, rfl⟩
    obtain ⟨submission, submittedAt, hwaits, rfl⟩ :=
      (find?_pending_iff henabled hstart htrace).mp hwaiting
    obtain ⟨hgiven, hfinite, hpositive⟩ := Submission.usableReference?_pending.mp hreference
    exact ⟨submission, submittedAt, reference, hwaits, hgiven, hfinite, hpositive, rfl⟩
  · rintro ⟨submission, submittedAt, reference, hwaits, hgiven, hfinite, hpositive, rfl⟩
    exact ⟨_, (find?_pending_iff henabled hstart htrace).mpr ⟨submission, submittedAt, hwaits, rfl⟩,
      reference, Submission.usableReference?_pending.mpr ⟨hgiven, hfinite, hpositive⟩, rfl⟩

/-- A fill at a price that is not finite, or of an order that does not wait, changes nothing. -/
theorem perform_fill_of_idle {start desk : Desk} {events : List Event} {order : String}
    {price : Float} {spread : Option Float} {filledAt : Option Instant} {now : Instant}
    (henabled : settings.enabled = true) (hstart : start.pending = .empty)
    (htrace : Trace (Desk.perform settings) start events desk)
    (hidle : price.isFinite = false ∨
      ∀ submission submittedAt, ¬ Waits settings order events submission submittedAt) :
    desk.perform settings (.fill order price spread filledAt now) = .ok (desk, .filled none) := by
  have hunusable : (settings.enabled && price.isFinite) = false ∨
      desk.pending.find? order = none := by
    cases hidle with
    | inl hinfinite => exact .inl (by rw [hinfinite, Bool.and_false])
    | inr hnone =>
      apply Or.inr
      rw [Option.eq_none_iff_forall_ne_some]
      intro waiting hwaiting
      obtain ⟨submission, submittedAt, hwaits, -⟩ :=
        (find?_pending_iff henabled hstart htrace).mp hwaiting
      exact hnone submission submittedAt hwaits
  rw [Desk.perform, Desk.fill_of_idle hunusable]
  rfl

/-- The orders on the books are those that wait. -/
theorem mem_keys_pending_iff {start desk : Desk} {events : List Event} {order : String}
    (henabled : settings.enabled = true) (hstart : start.pending = .empty)
    (htrace : Trace (Desk.perform settings) start events desk) :
    order ∈ desk.pending.keys ↔
      ∃ submission submittedAt, Waits settings order events submission submittedAt := by
  rw [Table.mem_keys_iff]
  constructor
  · rintro ⟨waiting, hwaiting⟩
    obtain ⟨submission, submittedAt, hwaits, -⟩ :=
      (find?_pending_iff henabled hstart htrace).mp hwaiting
    exact ⟨submission, submittedAt, hwaits⟩
  · rintro ⟨submission, submittedAt, hwaits⟩
    exact ⟨_, (find?_pending_iff henabled hstart htrace).mpr ⟨submission, submittedAt, hwaits, rfl⟩⟩

end

/-- What a desk makes of submissions and fills after events. -/
structure Matching (settings : Settings.Costs) (events : List Event) (desk : Desk) : Prop where
  answered : ∀ call : Call, call.Reaches settings → ∃ done, desk.perform settings call = .ok done
  /-- A fill at a finite price gives a sample of the submission that waits, if its reference price
  is finite and positive. -/
  sampled : ∀ {order : String} {price : Float} {spread : Option Float}
    {filledAt : Option Instant} {now : Instant} {next : Desk} {sample? : Option Sample},
    price.isFinite = true →
    desk.perform settings (.fill order price spread filledAt now) = .ok (next, .filled sample?) →
    ∀ sample, sample? = some sample ↔ ∃ submission submittedAt reference,
      Waits settings order events submission submittedAt ∧
        submission.referencePrice = some reference ∧ reference.isFinite = true ∧
        0.0 < reference ∧
        sample = submission.sample submittedAt reference price spread (filledAt.getD now)
  /-- A fill at a price that is not finite, or of an order that does not wait, changes nothing. -/
  idle : ∀ {order : String} {price : Float} {spread : Option Float} {filledAt : Option Instant}
    {now : Instant},
    (price.isFinite = false ∨
      ∀ submission submittedAt, ¬ Waits settings order events submission submittedAt) →
    desk.perform settings (.fill order price spread filledAt now) = .ok (desk, .filled none)
  /-- After a fill at a finite price its order does not wait until it is submitted again. -/
  consumed : ∀ {order : String} {since earlier : List Event} {filling : Event},
    events = since ++ filling :: earlier → filling.call.fills order = true →
    (∀ event ∈ since, ∀ submission submittedAt,
      ¬ event.call.Submits order submission submittedAt) →
    ∀ submission submittedAt, ¬ Waits settings order events submission submittedAt
  /-- A fill at a finite price takes its order off the books, and finds it there exactly if it ends
  the wait of a submission. -/
  taken : ∀ {order : String} {newer older : List Event} {filling : Event},
    events = newer ++ filling :: older → filling.call.fills order = true →
    filling.after.pending.find? order = none ∧
      ((∃ waiting, filling.before.pending.find? order = some waiting) ↔
        ∃ between submitting earlier, older = between ++ submitting :: earlier ∧
          Ends settings filling between submitting)
  /-- Every submission is consumed by one fill at most. -/
  once : ∀ {later earlier newer newer' between between' : List Event}
    {submitting filling filling' : Event},
    events = later ++ submitting :: earlier →
    later = newer ++ filling :: between → later = newer' ++ filling' :: between' →
    Ends settings filling between submitting → Ends settings filling' between' submitting →
    newer = newer' ∧ filling = filling' ∧ between = between'
  /-- The books count the orders that wait. -/
  counted : ∃ orders : List String, orders.Nodup ∧ desk.pending.size = orders.length ∧
    ∀ order, order ∈ orders ↔
      ∃ submission submittedAt, Waits settings order events submission submittedAt

/-- A desk that is switched on matches fills to submissions, whatever calls it has answered. -/
theorem fills_matched {settings : Settings.Costs} {start desk : Desk} {events : List Event}
    (henabled : settings.enabled = true) (hcreate : Desk.create settings = .ok start)
    (htrace : Trace (Desk.perform settings) start events desk) : Matching settings events desk := by
  have hstart : start.pending = .empty := by
    simp only [Desk.create, Fault.bind_eq_ok_iff, Fault.pure_eq_ok_iff] at hcreate
    obtain ⟨_, -, rfl⟩ := hcreate
    rfl
  constructor
  case answered => exact fun call hreaches => exists_perform hcreate htrace hreaches
  case sampled =>
    exact fun hfinite hperform => sample?_eq_some_iff henabled hstart htrace hfinite hperform
  case idle => exact fun hidle => perform_fill_of_idle henabled hstart htrace hidle
  case consumed => exact fun hevents => hevents ▸ not_waits_of_fills
  case taken =>
    intro order newer older filling hevents hfills
    rw [hevents] at htrace
    obtain ⟨hbefore, hdone, -⟩ := htrace.split
    constructor
    · rw [find?_pending_of_not_submits henabled (Call.not_submits_of_fills hfills) hdone]
      simp only [Call.not_spares_of_fills hfills, filter_const, Bool.false_eq_true, if_false]
    · exact exists_pending_iff_ends henabled hstart hbefore hfills
  case once =>
    intro later earlier newer newer' between between' submitting filling filling' _ hfirst hsecond
      hends hother
    have hsplit := hfirst.symm.trans hsecond
    obtain rfl := hends.unique hsplit hother
    obtain ⟨rfl, rfl⟩ := List.cons.inj (List.append_cancel_left hsplit)
    exact ⟨rfl, rfl, rfl⟩
  case counted =>
    exact ⟨desk.pending.keys, desk.pending.distinct, (List.length_map _).symm,
      fun order => mem_keys_pending_iff henabled hstart htrace⟩

def purchase : Submission where
  order := some "o"
  symbol := "BTC"
  side := .buy
  orderType := .market
  referencePrice := some 100.0
  dailyVolume := none
  averageRange := none
  submittedAt := none

/-- A fill at an undefined price leaves the purchase waiting for the next one. -/
theorem fills_matched_after_undefined_fill :
    ∃ start desk events, Desk.create {} = .ok start ∧
      Trace (Desk.perform {}) start events desk ∧
      (events.map Event.call).reverse =
        [.submit purchase ⟨0⟩, .fill "o" Binary64.undefined none none ⟨1000⟩,
          .fill "o" 101.0 none none ⟨2000⟩] ∧
      desk.pending.size = 0 ∧ (desk.history.ofSymbol "BTC").map Sample.queueMillis = [2] ∧
      Matching {} events desk := by
  have hcreate : Desk.create {} = .ok ⟨.empty, .empty 500 ⟨604800000000⟩⟩ := rfl
  have hreplays : Trace.replays (Desk.perform {}) ⟨.empty, .empty 500 ⟨604800000000⟩⟩
      [.submit purchase ⟨0⟩, .fill "o" Binary64.undefined none none ⟨1000⟩,
        .fill "o" 101.0 none none ⟨2000⟩]
      (fun _ desk => desk.pending.size = 0 &&
        (desk.history.ofSymbol "BTC").map Sample.queueMillis = [2]) = true := by decide +kernel
  obtain ⟨events, desk, htrace, hcalls, hcheck⟩ := Trace.exists_of_replays hreplays
  simp only [Bool.and_eq_true, decide_eq_true_eq] at hcheck
  exact ⟨_, desk, events, hcreate, htrace, hcalls, hcheck.1, hcheck.2,
    fills_matched rfl hcreate htrace⟩

end Costs

end ExposureControl
