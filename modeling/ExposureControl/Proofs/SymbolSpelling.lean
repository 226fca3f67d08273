import ExposureControl.Proofs.SymbolLetters

/-!
# The spelling of symbols

Two runs of the cost desk whose calls spell symbols with other cases of their letters answer alike,
but for the spelling that a sample takes from its submission.  The samples of a symbol are made up
of the fills of its own and of the prunes, and so is everything that is said of them: symbols whose
letters differ have no part in it.
-/

namespace ExposureControl.Costs

/-! ## Other spellings -/

/-- Whether a submission is another one but for the spelling of its symbol. -/
structure Submission.Respells (submission other : Submission) : Prop where
  letters : SameLetters submission.symbol other.symbol
  rest : other = { submission with symbol := other.symbol }

/-- Whether a sample is another one but for the spelling of its symbol. -/
structure Sample.Respells (sample other : Sample) : Prop where
  letters : SameLetters sample.symbol other.symbol
  rest : other = { sample with symbol := other.symbol }

/-- Whether a call is another one but for the spelling of a symbol. -/
inductive Call.Respells : Call → Call → Prop
  | submit {submission other : Submission} (hrespells : submission.Respells other)
      (now : Instant) : Respells (.submit submission now) (.submit other now)
  | same (call : Call) : Respells call call

/-- Whether an answer is another one but for the spelling of the symbol of a sample. -/
inductive Answer.Respells : Answer → Answer → Prop
  | filled {sample other : Sample} (hrespells : sample.Respells other) :
      Respells (.filled (some sample)) (.filled (some other))
  | same (answer : Answer) : Respells answer answer

namespace SameLetters

variable {a b c : String}

theorem symm (hletters : SameLetters a b) : SameLetters b a :=
  sameLetters_iff.mpr (sameLetters_iff.mp hletters).symm

theorem trans (hletters : SameLetters a b) (hnext : SameLetters b c) : SameLetters a c :=
  sameLetters_iff.mpr ((sameLetters_iff.mp hletters).trans (sameLetters_iff.mp hnext))

end SameLetters

theorem Call.Respells.keyed_eq {call other : Call} (hrespells : call.Respells other) :
    call.keyed = other.keyed := by
  cases hrespells with
  | submit hrespells now =>
    rw [hrespells.rest, Call.keyed, Call.keyed, Submission.keyed, Submission.keyed,
      sameLetters_iff.mp hrespells.letters]
  | same => rfl

namespace Sample

variable {sample other : Sample} {samples others : List Sample}

theorem keyed_eq_keyed_iff : sample.keyed = other.keyed ↔ sample.Respells other := by
  constructor
  · intro hkeyed
    obtain ⟨symbol, _, _, _, _, _, _, _, _, _, _⟩ := sample
    obtain ⟨spelling, _, _, _, _, _, _, _, _, _, _⟩ := other
    simp only [keyed, mk.injEq] at hkeyed
    obtain ⟨hsymbol, rfl, rfl, rfl, rfl, rfl, rfl, rfl, rfl, rfl, rfl⟩ := hkeyed
    exact ⟨sameLetters_iff.mpr hsymbol, rfl⟩
  · rintro ⟨hletters, hrest⟩
    rw [hrest, keyed, keyed, sameLetters_iff.mp hletters]

theorem forall₂_respells_iff :
    List.Forall₂ Respells samples others ↔ samples.map keyed = others.map keyed := by
  rw [← List.forall₂_eq_eq_eq, List.forall₂_map_left_iff, List.forall₂_map_right_iff]
  simp only [keyed_eq_keyed_iff]

theorem map_eq_of_respells {α : Type} {f : Sample → α} (hf : ∀ sample, f sample.keyed = f sample)
    (hrespells : List.Forall₂ Respells samples others) : samples.map f = others.map f := by
  have hread : ∀ samples : List Sample, (samples.map keyed).map f = samples.map f := by
    intro samples
    simp only [List.map_map, Function.comp_def, hf]
  rw [← hread, forall₂_respells_iff.mp hrespells, hread]

theorem filter_respells {keep : Sample → Bool} (hkeep : ∀ sample, keep sample.keyed = keep sample)
    (hrespells : List.Forall₂ Respells samples others) :
    List.Forall₂ Respells (samples.filter keep) (others.filter keep) := by
  have hread : ∀ samples : List Sample,
      (samples.map keyed).filter keep = (samples.filter keep).map keyed := by
    intro samples
    simp only [List.filter_map, Function.comp_def, hkeep]
  rw [forall₂_respells_iff] at hrespells ⊢
  rw [← hread, hrespells, hread]

theorem extend_respells (capacity : Nat) (cutoff : Instant) (hsample : sample.Respells other)
    (hrespells : List.Forall₂ Respells samples others) :
    List.Forall₂ Respells (History.extend capacity cutoff sample samples)
      (History.extend capacity cutoff other others) := by
  rw [forall₂_respells_iff] at hrespells ⊢
  rw [← History.extend_keyed, ← History.extend_keyed, hrespells,
    keyed_eq_keyed_iff.mpr hsample]

end Sample

theorem Answer.respells_of_keyed_eq {answer other : Answer}
    (hkeyed : answer.keyed = other.keyed) : answer.Respells other := by
  cases answer with
  | submitted => cases other <;> first | exact .same _ | cases hkeyed
  | pruned count =>
    cases other with
    | pruned => cases hkeyed; exact .same _
    | _ => cases hkeyed
  | filled sample =>
    cases other with
    | filled other =>
      have hsamples := Answer.filled.inj hkeyed
      cases sample <;> cases other
      · exact .same _
      · cases hsamples
      · cases hsamples
      · exact .filled (Sample.keyed_eq_keyed_iff.mp (Option.some.inj hsamples))
    | _ => cases hkeyed

/-! ## What is said of a symbol -/

/-- Whether two desks say the same of a symbol each. -/
structure AnswersAlike (settings : Settings.Costs) (first second : Desk) (a b : String) :
    Prop where
  expected : ∀ orderType time, first.expectedSlippage settings a orderType time =
    second.expectedSlippage settings b orderType time
  recommended : ∀ orderType time, first.recommend settings a orderType time =
    second.recommend settings b orderType time
  summarised : ∀ start stop, first.history.summary (some a) start stop =
    second.history.summary (some b) start stop
  sized : first.history.size a = second.history.size b
  samples : List.Forall₂ Sample.Respells (first.history.ofSymbol a) (second.history.ofSymbol b)
  /-- A sample that is added drives as many older ones out. -/
  evicted : ∀ {sample other : Sample} (now : Instant), SameLetters sample.symbol a →
    sample.Respells other →
      (first.history.append sample now).map Prod.snd =
        (second.history.append other now).map Prod.snd

section

variable {first second : Desk} {a b : String}

theorem expectedSlippage_eq_of_samples {settings : Settings.Costs}
    (hsamples : List.Forall₂ Sample.Respells (first.history.ofSymbol a)
      (second.history.ofSymbol b)) (orderType : OrderType) (time : Instant) :
    first.expectedSlippage settings a orderType time =
      second.expectedSlippage settings b orderType time := by
  have hmean : ∀ {samples others : List Sample}, List.Forall₂ Sample.Respells samples others →
      History.meanSlippage samples = History.meanSlippage others := by
    intro samples others hrespells
    rw [History.meanSlippage, History.meanSlippage,
      Sample.map_eq_of_respells (fun _ => rfl) hrespells]
  have haverage : first.history.average a = second.history.average b := hmean hsamples
  have hhourly : first.history.hourlyAverage a orderType time.hour =
      second.history.hourlyAverage b orderType time.hour :=
    hmean (Sample.filter_respells (fun _ => rfl) hsamples)
  rw [Desk.expectedSlippage, Desk.expectedSlippage, haverage, hhourly]

theorem Summary.ofSamples_eq_of_respells {samples others : List Sample}
    (hrespells : List.Forall₂ Sample.Respells samples others) :
    Summary.ofSamples samples = Summary.ofSamples others := by
  have hslippage := Sample.map_eq_of_respells (f := Sample.slippage) (fun _ => rfl) hrespells
  have hqueue := Sample.map_eq_of_respells
    (f := fun sample => Binary64.ofInt sample.queueMillis) (fun _ => rfl) hrespells
  have hhourly := Sample.map_eq_of_respells
    (f := fun sample => (sample.hour, sample.slippage)) (fun _ => rfl) hrespells
  rw [ofSamples, ofSamples, hrespells.length_eq, hslippage, hqueue, hhourly]

/-- What is said of a symbol depends on its samples, whose symbols are spelled as they may. -/
theorem AnswersAlike.of_samples {settings : Settings.Costs} (hletters : SameLetters a b)
    (hcapacity : first.history.capacity = second.history.capacity)
    (hretention : first.history.retention = second.history.retention)
    (hsamples : List.Forall₂ Sample.Respells (first.history.ofSymbol a)
      (second.history.ofSymbol b)) : AnswersAlike settings first second a b := by
  have hexpected : ∀ orderType time, first.expectedSlippage settings a orderType time =
      second.expectedSlippage settings b orderType time := expectedSlippage_eq_of_samples hsamples
  constructor
  case expected => exact hexpected
  case recommended =>
    intro orderType time
    rw [Desk.recommend, Desk.recommend, hexpected]
  case summarised =>
    intro start stop
    exact Summary.ofSamples_eq_of_respells (Sample.filter_respells (fun _ => rfl) hsamples)
  case sized => exact hsamples.length_eq
  case samples => exact hsamples
  case evicted =>
    intro sample other now hsymbol hsample
    have hother : SameLetters other.symbol b := hsample.letters.symm.trans (hsymbol.trans hletters)
    rw [History.append, History.append, History.ofSymbol_congr hsymbol,
      History.ofSymbol_congr hother, ← hretention, ← hcapacity]
    cases now.before first.history.retention with
    | error fault => rfl
    | ok cutoff =>
      have hextended :=
        Sample.extend_respells first.history.capacity cutoff hsample hsamples
      change Except.ok (_ - _) = Except.ok (_ - _)
      rw [hsamples.length_eq, hextended.length_eq]

end

/-! ## Respelled runs -/

/-- Whether a submission, which counts from a time, waits under an order after events and stands at
a place among them, the newest at the first. -/
def WaitsAt (settings : Settings.Costs) (order : String) (events : List Event) (place : Nat)
    (submission : Submission) (submittedAt : Instant) : Prop :=
  ∃ submitting, events[place]? = some submitting ∧
    submitting.call.Submits order submission submittedAt ∧
    ∀ event ∈ events.take place, event.call.spares settings order submittedAt = true

section

variable {settings : Settings.Costs} {order : String} {submission : Submission}
  {submittedAt : Instant}

theorem waits_iff_exists_waitsAt {events : List Event} :
    Waits settings order events submission submittedAt ↔
      ∃ place, WaitsAt settings order events place submission submittedAt := by
  constructor
  · rintro ⟨since, submitting, earlier, rfl, hsubmits, hspared⟩
    refine ⟨since.length, submitting, ?_, hsubmits, ?_⟩
    · simp
    · simpa using hspared
  · rintro ⟨place, submitting, hplace, hsubmits, hspared⟩
    obtain ⟨hlt, hget⟩ := List.getElem?_eq_some_iff.mp hplace
    refine ⟨events.take place, submitting, events.drop (place + 1), ?_, hsubmits, hspared⟩
    rw [← hget, List.getElem_cons_drop, List.take_append_drop]

theorem waitsAt_cons_succ {event : Event} {events : List Event} {place : Nat} :
    WaitsAt settings order (event :: events) (place + 1) submission submittedAt ↔
      event.call.spares settings order submittedAt = true ∧
        WaitsAt settings order events place submission submittedAt := by
  simp only [WaitsAt, List.getElem?_cons_succ, List.take_succ_cons, List.forall_mem_cons]
  tauto

theorem Call.Respells.spares_eq {call other : Call} (hrespells : call.Respells other) :
    other.spares settings order submittedAt = call.spares settings order submittedAt := by
  cases hrespells with
  | submit hrespells now => rw [hrespells.rest]; rfl
  | same => rfl

theorem Call.Submits.respelled {call other : Call}
    (hsubmits : call.Submits order submission submittedAt) (hrespells : call.Respells other) :
    ∃ respelling, other.Submits order respelling submittedAt := by
  cases hrespells with
  | same => exact ⟨submission, hsubmits⟩
  | @submit _ respelling hrespells now =>
    obtain ⟨_, hcall, horder, htime⟩ := hsubmits
    obtain ⟨rfl, rfl⟩ := Call.submit.inj hcall
    refine ⟨respelling, now, rfl, ?_, ?_⟩
    · rw [hrespells.rest]
      exact horder
    · rw [hrespells.rest]
      exact htime

/-- In a respelled run the submission at the same place waits. -/
theorem WaitsAt.respelled {events others : List Event}
    (hcalls : List.Forall₂ (fun event other : Event => event.call.Respells other.call)
      events others)
    {place : Nat} (hwaits : WaitsAt settings order events place submission submittedAt) :
    ∃ respelling, WaitsAt settings order others place respelling submittedAt := by
  induction hcalls generalizing place with
  | nil =>
    obtain ⟨_, hnone, -⟩ := hwaits
    cases hnone
  | @cons event other events others hcall _ ih =>
    cases place with
    | zero =>
      obtain ⟨_, hfirst, hsubmits, -⟩ := hwaits
      obtain rfl := Option.some.inj hfirst
      obtain ⟨respelling, hrespelled⟩ := hsubmits.respelled hcall
      exact ⟨respelling, other, rfl, hrespelled, fun _ hnone => nomatch hnone⟩
    | succ place =>
      obtain ⟨hspares, hrest⟩ := waitsAt_cons_succ.mp hwaits
      obtain ⟨respelling, hrespelled⟩ := ih hrest
      exact ⟨respelling, waitsAt_cons_succ.mpr ⟨hcall.spares_eq ▸ hspares, hrespelled⟩⟩

end

section

variable {settings : Settings.Costs} {first second next : Desk} {call respelled : Call}
  {answer : Answer}

theorem map_perform_of_keyed_eq (settings : Settings.Costs) (hdesks : first.keyed = second.keyed)
    (hcall : call.Respells respelled) :
    (first.perform settings call).map (fun done => (done.1.keyed, done.2.keyed)) =
      (second.perform settings respelled).map fun done => (done.1.keyed, done.2.keyed) := by
  rw [← Desk.perform_keyed, ← Desk.perform_keyed, hdesks, hcall.keyed_eq]

/-- A respelled call is answered alike. -/
theorem exists_perform_respelled (hdesks : first.keyed = second.keyed)
    (hcall : call.Respells respelled)
    (hdone : first.perform settings call = .ok (next, answer)) :
    ∃ other given, second.perform settings respelled = .ok (other, given) ∧
      next.keyed = other.keyed ∧ answer.Respells given := by
  have hsame := map_perform_of_keyed_eq settings hdesks hcall
  rw [hdone] at hsame
  cases hother : second.perform settings respelled with
  | error fault =>
    rw [hother] at hsame
    cases hsame
  | ok done =>
    rw [hother] at hsame
    obtain ⟨hnext, hanswer⟩ := Prod.mk.inj (Except.ok.inj hsame)
    exact ⟨done.1, done.2, rfl, hnext, Answer.respells_of_keyed_eq hanswer⟩

theorem perform_eq_error_respelled (hdesks : first.keyed = second.keyed)
    (hcall : call.Respells respelled) (fault : Fault) :
    first.perform settings call = .error fault ↔
      second.perform settings respelled = .error fault := by
  have hsame := map_perform_of_keyed_eq settings hdesks hcall
  cases hfirst : first.perform settings call <;>
    cases hsecond : second.perform settings respelled <;>
      simp_all [Except.map]

theorem AnswersAlike.of_keyed {a b : String} (hdesks : first.keyed = second.keyed)
    (hletters : SameLetters a b) : AnswersAlike settings first second a b := by
  have hhistory : first.history.keyed = second.history.keyed := congrArg Desk.history hdesks
  have hcapacity : first.history.keyed.capacity = second.history.keyed.capacity := by rw [hhistory]
  have hretention : first.history.keyed.retention = second.history.keyed.retention := by
    rw [hhistory]
  refine .of_samples hletters hcapacity hretention ?_
  rw [Sample.forall₂_respells_iff, ← History.ofSymbol_keyed, ← History.ofSymbol_keyed, hhistory,
    History.ofSymbol_congr hletters]

/-- Respelled calls are answered alike, one after the other. -/
theorem exists_respelled_trace {start desk : Desk} {events : List Event} {calls : List Call}
    (htrace : Trace (Desk.perform settings) start events desk)
    (hcalls : List.Forall₂ Call.Respells (events.map Event.call) calls) :
    ∃ others other, Trace (Desk.perform settings) start others other ∧
      others.map Event.call = calls ∧ desk.keyed = other.keyed ∧
      List.Forall₂ (fun event other : Event => event.answer.Respells other.answer)
        events others := by
  induction htrace generalizing calls with
  | start =>
    obtain rfl := List.forall₂_nil_left_iff.mp hcalls
    exact ⟨[], start, .start, rfl, rfl, .nil⟩
  | event past done ih =>
    obtain ⟨respelled, rest, hcall, hrest, rfl⟩ := List.forall₂_cons_left_iff.mp hcalls
    obtain ⟨others, other, hothers, hmade, hdesks, hanswers⟩ := ih hrest
    obtain ⟨next, given, hgiven, hnext, hanswer⟩ := exists_perform_respelled hdesks hcall done
    exact ⟨_, next, hothers.event hgiven, congrArg (respelled :: ·) hmade, hnext,
      .cons hanswer hanswers⟩

/-- A sample is made of an order that waits. -/
theorem exists_waiting_of_filled {desk : Desk} {order : String} {price : Float}
    {spread : Option Float} {filledAt : Option Instant} {now : Instant} {sample : Sample}
    (hfill : desk.perform settings (.fill order price spread filledAt now) =
      .ok (next, .filled (some sample))) :
    settings.enabled = true ∧
      ∃ waiting, desk.pending.find? order = some waiting ∧ sample.symbol = waiting.symbol := by
  simp only [Desk.perform, Fault.bind_eq_ok_iff, Fault.pure_eq_ok_iff, Prod.mk.injEq, Prod.exists,
    Answer.filled.injEq] at hfill
  obtain ⟨_, _, hfill, -, rfl⟩ := hfill
  cases Desk.fillStep_of_fill hfill with
  | sampled hacted hwaiting => exact ⟨(Bool.and_eq_true_iff.mp hacted).1, _, hwaiting, rfl⟩

end

/-- Whether a run, whose calls spell symbols otherwise, answers like another one. -/
structure RunsAlike (settings : Settings.Costs) (events : List Event) (desk : Desk)
    (others : List Event) (other : Desk) : Prop where
  answers : List.Forall₂ (fun event other : Event => event.answer.Respells other.answer)
    events others
  queries : ∀ {a b : String}, SameLetters a b → AnswersAlike settings desk other a b
  waiting : desk.pending.size = other.pending.size
  /-- Both runs end at the same faults. -/
  faults : ∀ {call respelled : Call}, call.Respells respelled → ∀ fault,
    desk.perform settings call = .error fault ↔ other.perform settings respelled = .error fault
  /-- A sample is spelled as the submission of which it is made, the one at the same place. -/
  spelled : ∀ {order : String} {price : Float} {spread : Option Float} {filledAt : Option Instant}
    {now : Instant} {next next' : Desk} {sample sample' : Sample},
    desk.perform settings (.fill order price spread filledAt now) =
      .ok (next, .filled (some sample)) →
    other.perform settings (.fill order price spread filledAt now) =
      .ok (next', .filled (some sample')) →
    ∃ place submission respelling submittedAt,
      WaitsAt settings order events place submission submittedAt ∧
      WaitsAt settings order others place respelling submittedAt ∧
      sample.symbol = submission.symbol ∧ sample'.symbol = respelling.symbol

/-- A run and the run of its calls with other spellings answer alike. -/
theorem runsAlike_of_respelled {settings : Settings.Costs} {start desk other : Desk}
    {events others : List Event} (hstart : start.pending = .empty)
    (htrace : Trace (Desk.perform settings) start events desk)
    (hothers : Trace (Desk.perform settings) start others other)
    (hcalls : List.Forall₂ Call.Respells (events.map Event.call) (others.map Event.call))
    (hdesks : desk.keyed = other.keyed)
    (hanswers : List.Forall₂ (fun event other : Event => event.answer.Respells other.answer)
      events others) : RunsAlike settings events desk others other := by
  refine ⟨hanswers, AnswersAlike.of_keyed hdesks, ?waiting,
    perform_eq_error_respelled hdesks, ?spelled⟩
  case waiting =>
    have hsize : ∀ desk : Desk, desk.keyed.pending.size = desk.pending.size :=
      fun _ => List.length_map _
    rw [← hsize, hdesks, hsize]
  case spelled =>
    intro order price spread filledAt now next next' sample sample' hfill hother
    obtain ⟨henabled, waiting, hwaiting, hsample⟩ := exists_waiting_of_filled hfill
    obtain ⟨-, waiting', hwaiting', hsample'⟩ := exists_waiting_of_filled hother
    obtain ⟨submission, submittedAt, hwaits, rfl⟩ :=
      (find?_pending_iff henabled hstart htrace).mp hwaiting
    obtain ⟨place, hplace⟩ := waits_iff_exists_waitsAt.mp hwaits
    rw [List.forall₂_map_left_iff, List.forall₂_map_right_iff] at hcalls
    obtain ⟨respelling, hrespelled⟩ := hplace.respelled hcalls
    -- the order that waits in the other run is the one of the respelled submission
    have hfound := (find?_pending_iff henabled hstart hothers).mpr
      ⟨respelling, submittedAt, waits_iff_exists_waitsAt.mpr ⟨place, hrespelled⟩, rfl⟩
    obtain rfl := Option.some.inj (hwaiting'.symm.trans hfound)
    exact ⟨place, submission, respelling, submittedAt, hplace, hrespelled, hsample, hsample'⟩

/-! ## Symbols apart -/

/-- What changes the samples of a symbol: a sample that is added at a time, or a prune. -/
inductive Intake
  | added (sample : Sample) (now : Instant)
  | pruned (now : Instant)

/-- Whether a change is another one but for the spelling of a symbol. -/
inductive Intake.Respells : Intake → Intake → Prop
  | added {sample other : Sample} (hrespells : sample.Respells other) (now : Instant) :
      Respells (.added sample now) (.added other now)
  | pruned (now : Instant) : Respells (.pruned now) (.pruned now)

def intake? (symbol : String) (event : Event) : Option Intake :=
  match event.call, event.answer with
  | .fill _ _ _ _ now, .filled (some sample) =>
    if SameLetters sample.symbol symbol then some (.added sample now) else none
  | .prune now, _ => some (.pruned now)
  | _, _ => none

/-- The samples after a change, with room and retention of their history. -/
def Intake.take (capacity : Nat) (retention : Span) : Intake → List Sample → List Sample
  | .added sample now, samples =>
    match now.before retention with
    | .ok cutoff => History.extend capacity cutoff sample samples
    | .error _ => samples
  | .pruned now, samples =>
    match now.before retention with
    | .ok cutoff => History.keepFrom cutoff samples
    | .error _ => samples

namespace History

/-- A sample is added to the samples of its symbol, however that is spelled. -/
theorem ofSymbol_append {history next : History} {sample : Sample} {now : Instant} {evicted : Nat}
    (happend : history.append sample now = .ok (next, evicted)) (symbol : String) :
    next.ofSymbol symbol =
      if SameLetters sample.symbol symbol then
        Intake.take history.capacity history.retention (.added sample now)
          (history.ofSymbol symbol)
      else history.ofSymbol symbol := by
  simp only [append, Fault.bind_eq_ok_iff, Fault.pure_eq_ok_iff, Prod.mk.injEq] at happend
  obtain ⟨cutoff, hcutoff, rfl, -⟩ := happend
  rw [ofSymbol, Table.find?_insert]
  by_cases hletters : SameLetters sample.symbol symbol
  · rw [if_pos (sameLetters_iff.mp hletters).symm, if_pos hletters, ofSymbol_congr hletters]
    simp only [Intake.take, hcutoff]
    rfl
  · rw [if_neg (mt (fun hkey => sameLetters_iff.mpr hkey.symm) hletters), if_neg hletters]
    rfl

theorem ofSymbol_pruneExpired {history next : History} {now : Instant} {removed : Nat}
    (hprune : history.pruneExpired now = .ok (next, removed)) (symbol : String) :
    next.ofSymbol symbol =
      Intake.take history.capacity history.retention (.pruned now) (history.ofSymbol symbol) := by
  simp only [pruneExpired, Fault.bind_eq_ok_iff, Fault.pure_eq_ok_iff, Prod.mk.injEq] at hprune
  obtain ⟨cutoff, hcutoff, rfl, -⟩ := hprune
  simp only [Intake.take, hcutoff, ofSymbol, Table.find?_mapValues]
  cases history.samples.find? (symbolKey symbol) <;> rfl

end History

/-- What an event does to the history, and what that is to a symbol. -/
inductive HistoryStep (event : Event) : Prop
  | idle (hsame : event.after.history = event.before.history)
      (hintake : ∀ symbol, intake? symbol event = none)
  | added {sample : Sample} {now : Instant} {evicted : Nat}
      (happend : event.before.history.append sample now = .ok (event.after.history, evicted))
      (hintake : ∀ symbol, intake? symbol event =
        if SameLetters sample.symbol symbol then some (.added sample now) else none)
  | pruned {now : Instant} {removed : Nat}
      (hprune : event.before.history.pruneExpired now = .ok (event.after.history, removed))
      (hintake : ∀ symbol, intake? symbol event = some (.pruned now))

section

variable {settings : Settings.Costs} {event : Event}

theorem historyStep_of_perform {desk next : Desk} {call : Call} {answer : Answer}
    (hdone : desk.perform settings call = .ok (next, answer)) :
    HistoryStep ⟨desk, call, answer, next⟩ := by
  cases call with
  | submit submission now =>
    simp only [Desk.perform, Except.ok.injEq, Prod.mk.injEq] at hdone
    obtain ⟨rfl, rfl⟩ := hdone
    refine .idle ?_ fun _ => rfl
    dsimp only [Desk.submit]
    split <;> rfl
  | fill order price spread filledAt now =>
    simp only [Desk.perform, Fault.bind_eq_ok_iff, Fault.pure_eq_ok_iff, Prod.mk.injEq,
      Prod.exists] at hdone
    obtain ⟨_, _, hfill, rfl, rfl⟩ := hdone
    cases Desk.fillStep_of_fill hfill with
    | idle => exact .idle rfl fun _ => rfl
    | unusable => exact .idle rfl fun _ => rfl
    | sampled _ _ _ happend => exact .added happend fun _ => rfl
  | prune now =>
    simp only [Desk.perform, Desk.pruneExpired, Fault.bind_eq_ok_iff, Fault.pure_eq_ok_iff,
      Prod.mk.injEq, Prod.exists] at hdone
    obtain ⟨_, _, ⟨_, _, hprune, _, -, _, -, rfl, -⟩, rfl, rfl⟩ := hdone
    exact .pruned hprune fun _ => rfl

/-- The samples of a symbol change by what an event is to them, and not otherwise. -/
theorem HistoryStep.ofSymbol_eq (hstep : HistoryStep event) (symbol : String) :
    event.after.history.ofSymbol symbol =
      (intake? symbol event).toList.foldr
        (Intake.take event.before.history.capacity event.before.history.retention)
        (event.before.history.ofSymbol symbol) := by
  cases hstep with
  | idle hsame hintake => rw [hintake, hsame]; rfl
  | added happend hintake =>
    rw [hintake, History.ofSymbol_append happend]
    split <;> rfl
  | pruned hprune hintake => rw [hintake, History.ofSymbol_pruneExpired hprune]; rfl

/-- An event changes neither how much room a history has, nor for how long it keeps samples. -/
theorem HistoryStep.bounds_eq (hstep : HistoryStep event) :
    event.after.history.capacity = event.before.history.capacity ∧
      event.after.history.retention = event.before.history.retention := by
  cases hstep with
  | idle hsame => rw [hsame]; exact ⟨rfl, rfl⟩
  | added happend =>
    simp only [History.append, Fault.bind_eq_ok_iff, Fault.pure_eq_ok_iff, Prod.mk.injEq] at happend
    obtain ⟨_, -, hafter, -⟩ := happend
    rw [← hafter]
    exact ⟨rfl, rfl⟩
  | pruned hprune =>
    simp only [History.pruneExpired, Fault.bind_eq_ok_iff, Fault.pure_eq_ok_iff,
      Prod.mk.injEq] at hprune
    obtain ⟨_, -, hafter, -⟩ := hprune
    rw [← hafter]
    exact ⟨rfl, rfl⟩

variable {start desk : Desk} {events : List Event}

theorem bounds_of_trace (htrace : Trace (Desk.perform settings) start events desk) :
    desk.history.capacity = start.history.capacity ∧
      desk.history.retention = start.history.retention := by
  induction htrace with
  | start => exact ⟨rfl, rfl⟩
  | @event events before next call answer past done ih =>
    obtain ⟨hcapacity, hretention⟩ := (historyStep_of_perform done).bounds_eq
    exact ⟨hcapacity.trans ih.1, hretention.trans ih.2⟩

/-- The samples of a symbol are made up of what the events are to them. -/
theorem ofSymbol_of_trace (htrace : Trace (Desk.perform settings) start events desk)
    (symbol : String) :
    desk.history.ofSymbol symbol =
      (events.filterMap (intake? symbol)).foldr
        (Intake.take start.history.capacity start.history.retention)
        (start.history.ofSymbol symbol) := by
  induction htrace with
  | start => rfl
  | @event events before next call answer past done ih =>
    obtain ⟨hcapacity, hretention⟩ := bounds_of_trace past
    have hstep := (historyStep_of_perform done).ofSymbol_eq symbol
    dsimp only at hstep
    rw [hcapacity, hretention, ih] at hstep
    cases hintake : intake? symbol ⟨before, call, answer, next⟩ with
    | none =>
      rw [hintake] at hstep
      rw [List.filterMap_cons_none hintake]
      exact hstep
    | some intake =>
      rw [hintake] at hstep
      rw [List.filterMap_cons_some hintake]
      exact hstep

end

theorem Intake.Respells.take {intake other : Intake} (hrespells : intake.Respells other)
    (capacity : Nat) (retention : Span) {samples others : List Sample}
    (hsamples : List.Forall₂ Sample.Respells samples others) :
    List.Forall₂ Sample.Respells (intake.take capacity retention samples)
      (other.take capacity retention others) := by
  cases hrespells with
  | added hsample now =>
    dsimp only [Intake.take]
    cases now.before retention with
    | error fault => exact hsamples
    | ok cutoff => exact Sample.extend_respells capacity cutoff hsample hsamples
  | pruned now =>
    dsimp only [Intake.take]
    cases now.before retention with
    | error fault => exact hsamples
    | ok cutoff => exact Sample.filter_respells (fun _ => rfl) hsamples

theorem Intake.foldr_take_respells (capacity : Nat) (retention : Span)
    {intakes others : List Intake} (hrespells : List.Forall₂ Intake.Respells intakes others) :
    List.Forall₂ Sample.Respells (intakes.foldr (Intake.take capacity retention) [])
      (others.foldr (Intake.take capacity retention) []) := by
  induction hrespells with
  | nil => exact .nil
  | cons hrespells _ ih => exact hrespells.take capacity retention ih

/-- What holds of the spelling of symbols in the runs of a desk. -/
structure ToldApartByLetters (settings : Settings.Costs) (start : Desk) : Prop where
  /-- A run whose calls spell symbols otherwise is carried out as well, and answers alike. -/
  respelled : ∀ {events : List Event} {desk : Desk} {calls : List Call},
    Trace (Desk.perform settings) start events desk →
    List.Forall₂ Call.Respells (events.map Event.call) calls →
      ∃ others other, Trace (Desk.perform settings) start others other ∧
        others.map Event.call = calls ∧ RunsAlike settings events desk others other
  /-- Two runs say the same of a symbol if the same came in for it, whatever came in for symbols of
  other letters. -/
  apart : ∀ {events others : List Event} {desk other : Desk} {a b : String},
    Trace (Desk.perform settings) start events desk →
    Trace (Desk.perform settings) start others other → SameLetters a b →
    List.Forall₂ Intake.Respells (events.filterMap (intake? a)) (others.filterMap (intake? b)) →
      AnswersAlike settings desk other a b

/-- Whatever a desk was called for, and however symbols were spelled in the calls, it tells symbols
apart by their letters alone. -/
theorem symbols_told_apart {settings : Settings.Costs} {start : Desk}
    (hcreate : Desk.create settings = .ok start) : ToldApartByLetters settings start := by
  obtain ⟨hpending, hnone⟩ : start.pending = .empty ∧
      ∀ symbol, start.history.ofSymbol symbol = [] := by
    simp only [Desk.create, Fault.bind_eq_ok_iff, Fault.pure_eq_ok_iff] at hcreate
    obtain ⟨_, -, rfl⟩ := hcreate
    exact ⟨rfl, fun _ => rfl⟩
  constructor
  case respelled =>
    intro events desk calls htrace hcalls
    obtain ⟨others, other, hothers, rfl, hdesks, hanswers⟩ := exists_respelled_trace htrace hcalls
    exact ⟨others, other, hothers, rfl,
      runsAlike_of_respelled hpending htrace hothers hcalls hdesks hanswers⟩
  case apart =>
    intro events others desk other a b htrace hothers hletters hintake
    obtain ⟨hcapacity, hretention⟩ := bounds_of_trace htrace
    obtain ⟨hcapacity', hretention'⟩ := bounds_of_trace hothers
    refine .of_samples hletters (hcapacity.trans hcapacity'.symm)
      (hretention.trans hretention'.symm) ?_
    rw [ofSymbol_of_trace htrace, ofSymbol_of_trace hothers, hnone, hnone, ← hcapacity,
      ← hretention]
    exact Intake.foldr_take_respells _ _ hintake

/-- Two purchases of one symbol, which are filled one after the other. -/
def twoPurchases (first second : String) : List Call :=
  [.submit { purchase with symbol := first } ⟨0⟩, .fill "o" 101.0 none none ⟨1000⟩,
    .submit { purchase with symbol := second } ⟨2000⟩, .fill "o" 102.0 none none ⟨3000⟩]

/-- Two spellings of a symbol share the room of one history, as one spelling does, and another
symbol has no part in it. -/
theorem symbols_told_apart_twoPurchases :
    ∃ settings start events desk others other, Desk.create settings = .ok start ∧
      Trace (Desk.perform settings) start events desk ∧
      (events.map Event.call).reverse = twoPurchases "BTC" "btc" ∧
      (desk.history.ofSymbol "Btc").map Sample.symbol = ["btc"] ∧
      Trace (Desk.perform settings) start others other ∧
      (others.map Event.call).reverse = twoPurchases "btc" "Btc" ∧
      RunsAlike settings events desk others other ∧
      AnswersAlike settings start desk "ETH" "eth" := by
  let settings : Settings.Costs := { historySize := 1 }
  let start : Desk := ⟨.empty, .empty 1 ⟨604800000000⟩⟩
  have hcreate : Desk.create settings = .ok start := rfl
  have hreplays : Trace.replays (Desk.perform settings) start (twoPurchases "BTC" "btc")
      (fun events desk => (desk.history.ofSymbol "Btc").map Sample.symbol = ["btc"] &&
        (events.filterMap (intake? "eth")).isEmpty) = true := by decide +kernel
  obtain ⟨events, desk, htrace, hmade, hcheck⟩ := Trace.exists_of_replays hreplays
  simp only [Bool.and_eq_true, decide_eq_true_eq, List.isEmpty_iff] at hcheck
  obtain ⟨hsymbols, hnone⟩ := hcheck
  have hspelling : ∀ {a b : String} (now : Instant), SameLetters a b →
      Call.Respells (.submit { purchase with symbol := a } now)
        (.submit { purchase with symbol := b } now) :=
    fun now hletters => .submit ⟨hletters, rfl⟩ now
  have hcalls : List.Forall₂ Call.Respells (events.map Event.call)
      (twoPurchases "btc" "Btc").reverse := by
    rw [← List.reverse_reverse (events.map Event.call), hmade]
    exact .cons (.same _) (.cons (hspelling _ (by decide)) (.cons (.same _)
      (.cons (hspelling _ (by decide)) .nil)))
  have happart := symbols_told_apart hcreate
  obtain ⟨others, other, hothers, hrespelled, halike⟩ := happart.respelled htrace hcalls
  refine ⟨settings, start, events, desk, others, other, hcreate, htrace, hmade, hsymbols, hothers,
    by rw [hrespelled, List.reverse_reverse], halike, ?_⟩
  refine happart.apart .start htrace (by decide) ?_
  rw [hnone]
  exact .nil

end ExposureControl.Costs
