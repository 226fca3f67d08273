import ExposureControl.Costs.Desk
import ExposureControl.Proofs.Trace

/-!
# Runs of the cost desk

The cost desk answers submissions, fills and prunes by itself, each at a time of its caller's
choice.  A fill does one of three things: nothing, take an order off the books, or take an order off
the books and keep a sample of it.
-/

namespace ExposureControl.Costs

/-- A call that may change the desk, with the time of the clock at which it is made. -/
inductive Call
  | submit (submission : Submission) (now : Instant)
  | fill (order : String) (price : Float) (spread : Option Float) (filledAt : Option Instant)
      (now : Instant)
  | prune (now : Instant)

/-- What a call gives back. -/
inductive Answer
  | submitted
  | filled (sample : Option Sample)
  | pruned (count : Nat)

/-- One call of the desk with its answer. -/
abbrev Event := ExposureControl.Event Desk Call Answer

/-- Answer a call. -/
def Desk.perform (settings : Settings.Costs) (desk : Desk) : Call → Except Fault (Desk × Answer)
  | .submit submission now => .ok (desk.submit settings submission now, .submitted)
  | .fill order price spread filledAt now => do
    let (desk, sample) ← desk.fill settings order price spread filledAt now
    return (desk, .filled sample)
  | .prune now => do
    let (desk, count) ← desk.pruneExpired settings now
    return (desk, .pruned count)

def sampleCutoff (settings : Settings.Costs) (now : Instant) : Except Fault Instant := do
  now.before (← Span.days settings.retentionDays)

/-- The time before which a submission has waited too long, as seen from `now`. -/
def pendingCutoff (settings : Settings.Costs) (now : Instant) : Except Fault Instant := do
  now.before (← Span.minutes settings.pendingMinutes)

/-- Whether the times before which a call drops what is old lie in the representable years. -/
def Call.Reaches (settings : Settings.Costs) : Call → Prop
  | .submit .. => True
  | .fill _ _ _ _ now => ∃ cutoff, sampleCutoff settings now = .ok cutoff
  | .prune now => (∃ cutoff, sampleCutoff settings now = .ok cutoff) ∧
      ∃ cutoff, pendingCutoff settings now = .ok cutoff

/-! ## Fills -/

/-- The desk after a fill, with the sample that the fill gives. -/
inductive FillStep (settings : Settings.Costs) (order : String) (price : Float)
    (spread : Option Float) (filledAt : Option Instant) (now : Instant) (desk : Desk) :
    Desk → Option Sample → Prop
  | idle (hidle : (settings.enabled && price.isFinite) = false ∨ desk.pending.find? order = none) :
      FillStep settings order price spread filledAt now desk desk none
  /-- The order had no usable reference price. -/
  | unusable {waiting : PendingOrder} (hacted : (settings.enabled && price.isFinite) = true)
      (hwaiting : desk.pending.find? order = some waiting)
      (hreference : Desk.usableReference? waiting = none) :
      FillStep settings order price spread filledAt now desk
        { desk with pending := desk.pending.erase order } none
  | sampled {waiting : PendingOrder} {reference : Float} {history : History} {evicted : Nat}
      (hacted : (settings.enabled && price.isFinite) = true)
      (hwaiting : desk.pending.find? order = some waiting)
      (hreference : Desk.usableReference? waiting = some reference)
      (happend : desk.history.append
        (Desk.sampleOf waiting reference price spread (filledAt.getD now)) now =
          .ok (history, evicted)) :
      FillStep settings order price spread filledAt now desk
        { pending := desk.pending.erase order, history }
        (some (Desk.sampleOf waiting reference price spread (filledAt.getD now)))

namespace Desk

variable {settings : Settings.Costs} {order : String} {price : Float} {spread : Option Float}
  {filledAt : Option Instant} {now : Instant} {desk next : Desk}

/-- Every fill is such a step. -/
theorem fillStep_of_fill {sample? : Option Sample}
    (hfill : desk.fill settings order price spread filledAt now = .ok (next, sample?)) :
    FillStep settings order price spread filledAt now desk next sample? := by
  unfold fill at hfill
  split at hfill
  · next hacted =>
    split at hfill
    · next hunknown =>
      cases hfill
      exact .idle (.inr hunknown)
    · next waiting hwaiting =>
      dsimp only at hfill
      split at hfill
      · next hreference =>
        cases hfill
        exact .unusable hacted hwaiting hreference
      · next reference hreference =>
        simp only [Fault.bind_eq_ok_iff, Fault.pure_eq_ok_iff, Prod.mk.injEq, Prod.exists] at hfill
        obtain ⟨history, evicted, happend, rfl, rfl⟩ := hfill
        exact .sampled hacted hwaiting hreference happend
  · next hacted =>
    cases hfill
    exact .idle (.inl (Bool.eq_false_iff.mpr hacted))

/-- A fill is carried out at every time from which the samples can be looked back. -/
theorem exists_fill {cutoff : Instant} (hcutoff : now.before desk.history.retention = .ok cutoff) :
    ∃ done, desk.fill settings order price spread filledAt now = .ok done := by
  unfold fill
  split
  · split
    · exact ⟨_, rfl⟩
    · dsimp only
      split
      · exact ⟨_, rfl⟩
      · rw [History.append, hcutoff]
        exact ⟨_, rfl⟩
  · exact ⟨_, rfl⟩

theorem fill_of_idle
    (hidle : (settings.enabled && price.isFinite) = false ∨ desk.pending.find? order = none) :
    desk.fill settings order price spread filledAt now = .ok (desk, none) := by
  unfold fill
  split
  · next hacted =>
    cases hidle with
    | inl hinactive =>
      rw [hinactive] at hacted
      cases hacted
    | inr hunknown => rw [hunknown]
  · rfl

end Desk

/-- The samples are kept for the same time after every fill. -/
theorem FillStep.retention {settings : Settings.Costs} {order : String} {price : Float}
    {spread : Option Float} {filledAt : Option Instant} {now : Instant} {desk next : Desk}
    {sample? : Option Sample}
    (hstep : FillStep settings order price spread filledAt now desk next sample?) :
    next.history.retention = desk.history.retention := by
  cases hstep with
  | idle => rfl
  | unusable => rfl
  | sampled _ _ _ happend =>
    simp only [History.append, Fault.bind_eq_ok_iff, Fault.pure_eq_ok_iff, Prod.mk.injEq] at happend
    obtain ⟨_, -, rfl, -⟩ := happend
    rfl

/-! ## Every trace -/

section

variable {settings : Settings.Costs} {start desk next : Desk} {call : Call} {answer : Answer}

/-- The samples are kept for the same time after every call. -/
theorem retention_perform (hperform : desk.perform settings call = .ok (next, answer)) :
    next.history.retention = desk.history.retention := by
  cases call with
  | submit submission now =>
    simp only [Desk.perform, Except.ok.injEq, Prod.mk.injEq] at hperform
    rw [← hperform.1, Desk.submit]
    split <;> rfl
  | fill order price spread filledAt now =>
    simp only [Desk.perform, Fault.bind_eq_ok_iff, Fault.pure_eq_ok_iff, Prod.mk.injEq,
      Prod.exists] at hperform
    obtain ⟨_, sample?, hfill, rfl, -⟩ := hperform
    exact (Desk.fillStep_of_fill hfill).retention
  | prune now =>
    simp only [Desk.perform, Desk.pruneExpired, History.pruneExpired, Fault.bind_eq_ok_iff,
      Fault.pure_eq_ok_iff, Prod.mk.injEq, Prod.exists] at hperform
    obtain ⟨_, _, ⟨_, _, ⟨_, -, rfl, -⟩, _, -, _, -, rfl, -⟩, rfl, -⟩ := hperform
    rfl

theorem retention_eq {events : List Event} (hcreate : Desk.create settings = .ok start)
    (htrace : Trace (Desk.perform settings) start events desk) :
    Span.days settings.retentionDays = .ok desk.history.retention := by
  induction htrace with
  | start =>
    simp only [Desk.create, Fault.bind_eq_ok_iff, Fault.pure_eq_ok_iff] at hcreate
    obtain ⟨retention, hretention, rfl⟩ := hcreate
    exact hretention
  | event past done ih => rw [ih, retention_perform done]

theorem exists_perform {events : List Event} (hcreate : Desk.create settings = .ok start)
    (htrace : Trace (Desk.perform settings) start events desk)
    (hreaches : call.Reaches settings) : ∃ done, desk.perform settings call = .ok done := by
  have hretention := retention_eq hcreate htrace
  cases call with
  | submit submission now => exact ⟨_, rfl⟩
  | fill order price spread filledAt now =>
    obtain ⟨cutoff, hcutoff⟩ := hreaches
    rw [sampleCutoff, hretention] at hcutoff
    obtain ⟨done, hfill⟩ := Desk.exists_fill hcutoff
    exact ⟨_, Fault.bind_eq_ok_iff.mpr ⟨done, hfill, rfl⟩⟩
  | prune now =>
    obtain ⟨⟨samples, hsamples⟩, pending, hpending⟩ := hreaches
    rw [sampleCutoff, hretention] at hsamples
    obtain ⟨span, hspan, hpending⟩ := Fault.bind_eq_ok_iff.mp hpending
    have hbefore : now.before desk.history.retention = .ok samples := hsamples
    simp [Desk.perform, Desk.pruneExpired, History.pruneExpired, hbefore, hspan, hpending, bind,
      Except.bind, pure, Except.pure]

end

end ExposureControl.Costs
