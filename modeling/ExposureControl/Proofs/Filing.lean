import ExposureControl.Proofs.ArenaSelect
import ExposureControl.Proofs.Records

/-!
# The filing of pulls

Every pull is filed under its decision: the table of decisions names the symbol in whose history
the pull is found, and no history has two pulls of one decision.  So looking a decision up finds
exactly the pull that is on record for it.
-/

namespace ExposureControl

namespace Registry

/-- Pulls are filed under their decisions. -/
structure Filed (registry : Registry) : Prop where
  filed : ∀ {symbol : String} {pull : Pull}, pull ∈ registry.historyOf symbol →
    registry.decisions.find? pull.decision = some symbol
  nodup : ∀ symbol, ((registry.historyOf symbol).map Pull.decision).Nodup

variable {before after registry : Registry} {symbol : String} {pull : Pull}

theorem Filed.unique (hfiled : registry.Filed) {other : String} {second : Pull}
    (hpull : pull ∈ registry.historyOf symbol) (hsecond : second ∈ registry.historyOf other)
    (hdecision : second.decision = pull.decision) : other = symbol ∧ second = pull := by
  have hsymbol : other = symbol := by
    have hother := hfiled.filed hsecond
    rw [hdecision, hfiled.filed hpull] at hother
    exact (Option.some.inj hother).symm
  subst hsymbol
  refine ⟨rfl, ?_⟩
  exact List.inj_on_of_nodup_map (hfiled.nodup other) hsecond hpull hdecision

theorem Filed.locate?_eq_some_iff (hfiled : registry.Filed) (decision : DecisionId) :
    registry.locate? decision = some (symbol, pull) ↔
      pull ∈ registry.historyOf symbol ∧ pull.decision = decision := by
  rw [Registry.locate?_eq_some_iff]
  constructor
  · rintro ⟨-, hfound⟩
    exact ⟨List.mem_of_find?_eq_some hfound, by simpa using List.find?_some hfound⟩
  · rintro ⟨hpull, rfl⟩
    refine ⟨hfiled.filed hpull, ?_⟩
    cases hfound : (registry.historyOf symbol).find? fun other =>
        other.decision = pull.decision with
    | none => simpa using List.find?_eq_none.mp hfound pull hpull
    | some found =>
      have hdecision : found.decision = pull.decision := by simpa using List.find?_some hfound
      rw [(hfiled.unique hpull (List.mem_of_find?_eq_some hfound) hdecision).2]

theorem Filed.findPull?_eq_some_iff (hfiled : registry.Filed) (decision : DecisionId) :
    registry.findPull? decision = some pull ↔
      ∃ symbol, pull ∈ registry.historyOf symbol ∧ pull.decision = decision := by
  simp only [findPull?, Option.map_eq_some_iff, Prod.exists, exists_eq_right,
    hfiled.locate?_eq_some_iff]

/-! ## What keeps the filing -/

theorem filed_empty : Registry.empty.Filed :=
  ⟨nofun, fun _ => List.nodup_nil⟩

theorem SamePulls.filed (hsame : SamePulls before after) (hfiled : before.Filed) :
    after.Filed := by
  refine ⟨fun {symbol pull} hpull => ?_, fun symbol => ?_⟩
  · rw [hsame.historyOf] at hpull
    rw [hsame.decisions]
    exact hfiled.filed hpull
  · rw [hsame.historyOf]
    exact hfiled.nodup symbol

theorem mem_historyOf_withPull (registry : Registry) (arm : Arm) (logged : Pull)
    (symbol : String) (pull : Pull) :
    pull ∈ (registry.withPull arm logged).historyOf symbol ↔
      pull ∈ registry.historyOf symbol ∨ symbol = logged.contest.symbol ∧ pull = logged := by
  rw [historyOf_withPull]
  split
  · next heq => simp [heq]
  · next hne => simp [hne]

theorem filed_withPull (hfiled : registry.Filed) (arm : Arm) (logged : Pull)
    (hfresh : ∀ symbol, ∀ pull ∈ registry.historyOf symbol, pull.decision ≠ logged.decision) :
    (registry.withPull arm logged).Filed := by
  refine ⟨fun {symbol pull} hpull => ?_, fun symbol => ?_⟩
  · obtain hold | ⟨rfl, rfl⟩ := (mem_historyOf_withPull registry arm logged symbol pull).mp hpull
    · exact (Table.find?_insert_of_ne (hfresh symbol pull hold)).trans (hfiled.filed hold)
    · exact Table.find?_insert_self _ _ _
  · rw [historyOf_withPull]
    split
    · rw [List.map_append, List.map_singleton, ← List.concat_eq_append, List.nodup_concat]
      refine ⟨fun hlisted => ?_, hfiled.nodup symbol⟩
      obtain ⟨pull, hpull, hdecision⟩ := List.mem_map.mp hlisted
      exact hfresh symbol pull hpull hdecision
    · exact hfiled.nodup symbol

/-- Resolving a pull on record replaces it and keeps all others. -/
theorem mem_historyOf_withOutcome (hfiled : registry.Filed)
    (hpull : pull ∈ registry.historyOf symbol) (resolved : Pull)
    (hsame : resolved.decision = pull.decision) (other : String) (found : Pull) :
    found ∈ (registry.withOutcome symbol resolved).historyOf other ↔
      other = symbol ∧ found = resolved ∨
        found ∈ registry.historyOf other ∧ found.decision ≠ resolved.decision := by
  rw [historyOf_withOutcome]
  split
  · next heq =>
    subst heq
    rw [mem_resolveIn_iff (hfiled.nodup other) (hsame ▸ List.mem_map_of_mem hpull)]
    simp only [true_and]
  · next hne =>
    refine ⟨fun hfound => .inr ⟨hfound, fun hdecision => ?_⟩, ?_⟩
    · exact hne (hfiled.unique hpull hfound (hdecision.trans hsame)).1
    · rintro (⟨heq, -⟩ | ⟨hfound, -⟩)
      · exact absurd heq hne
      · exact hfound

theorem filed_withOutcome (hfiled : registry.Filed) (hpull : pull ∈ registry.historyOf symbol)
    (resolved : Pull) (hsame : resolved.decision = pull.decision) :
    (registry.withOutcome symbol resolved).Filed := by
  refine ⟨fun {other found} hfound => ?_, fun other => ?_⟩
  · obtain ⟨rfl, rfl⟩ | ⟨hold, -⟩ :=
      (mem_historyOf_withOutcome hfiled hpull resolved hsame other found).mp hfound
    · rw [hsame]
      exact hfiled.filed hpull
    · exact hfiled.filed hold
  · rw [historyOf_withOutcome]
    split
    · obtain ⟨-, hfound⟩ := (Registry.locate?_eq_some_iff resolved.decision symbol pull).mp
        ((hfiled.locate?_eq_some_iff resolved.decision).mpr ⟨hpull, hsame.symm⟩)
      rw [map_resolveIn Pull.decision hsame hfound]
      exact hfiled.nodup symbol
    · exact hfiled.nodup other

theorem mem_historyOf_prunePulls (cutoff : Instant) (registry : Registry) (symbol : String)
    (pull : Pull) :
    pull ∈ (registry.prunePulls cutoff).1.historyOf symbol ↔
      pull ∈ registry.historyOf symbol ∧ ¬ pull.loggedAt < cutoff := by
  rw [historyOf_prunePulls, List.mem_filter, Bool.not_eq_true', decide_eq_false_iff_not]

theorem filed_prunePulls (hfiled : registry.Filed) (cutoff : Instant) :
    (registry.prunePulls cutoff).1.Filed := by
  refine ⟨fun {symbol pull} hpull => ?_, fun symbol => ?_⟩
  · obtain ⟨hold, hkept⟩ := (mem_historyOf_prunePulls cutoff registry symbol pull).mp hpull
    refine (find?_decisions_prunePulls cutoff registry pull.decision symbol).mpr
      ⟨hfiled.filed hold, fun other second hsecond hexpired hdecision => ?_⟩
    obtain ⟨-, rfl⟩ := hfiled.unique hold hsecond hdecision
    exact hkept hexpired
  · rw [historyOf_prunePulls]
    exact (hfiled.nodup symbol).sublist (List.filter_sublist.map Pull.decision)

end Registry

/-! ## Selections -/

namespace Arena

variable {settings : Settings.Selection} {now : Instant} {charged : String} {arm : Arm}
  {context : Context} {arena : Arena}

theorem mem_historyOf_committed {symbol : String} {pull : Pull} :
    pull ∈ (arena.committed settings now charged arm context).registry.historyOf symbol ↔
      pull ∈ arena.registry.historyOf symbol ∨
        symbol = arm.contest.symbol ∧ pull = arena.nextPull now arm context :=
  Registry.mem_historyOf_withPull arena.registry (arm.pulled settings.decay.halfLife now)
    (arena.nextPull now arm context) symbol pull

theorem filed_committed (hfiled : arena.registry.Filed)
    (hfresh : ∀ symbol, ∀ pull ∈ arena.registry.historyOf symbol,
      pull.decision ≠ arena.nextDecision) :
    (arena.committed settings now charged arm context).registry.Filed := by
  have hlogged := Registry.filed_withPull hfiled (arm.pulled settings.decay.halfLife now)
    (arena.nextPull now arm context) hfresh
  exact ⟨hlogged.filed, hlogged.nodup⟩

/-- A selection is refused without effect on the records, or it is logged with the next serial
number.  This holds of unsound registries too. -/
theorem adds_of_select {seeding : Seeding} {contest : Contest} {next : Arena}
    {answer : Except Refusal Selection}
    (hselect : arena.select settings seeding now contest context = .ok (next, answer)) :
    (∃ refusal, answer = .error refusal) ∧ next.registry = arena.registry ∨
      ∃ selection pull, answer = .ok selection ∧
        arena.registry.pullFor? (arena.registry.pullsLogged + 1) selection.arm selection.decision
          context now = some pull ∧
        Registry.AddsPull pull arena.registry next.registry := by
  obtain ⟨refusal, hrefused⟩ | ⟨generator, arm, -, hcommit⟩ :=
    select_refused_or_committed settings seeding now contest context arena
  · rw [hrefused] at hselect
    cases hselect
    exact .inl ⟨⟨refusal, rfl⟩, rfl⟩
  · rw [hcommit, commit] at hselect
    simp only [Fault.bind_eq_ok_iff, Prod.exists] at hselect
    obtain ⟨registry, logged, hlog, hselect⟩ := hselect
    obtain ⟨⟨refusal, rfl⟩, hsame⟩ | ⟨pull, rfl, hpull, hadds⟩ := Registry.adds_of_logPull hlog
    · cases hselect
      exact .inl ⟨⟨refusal, rfl⟩, hsame⟩
    · simp only [Fault.bind_eq_ok_iff, Fault.pure_eq_ok_iff, Prod.mk.injEq,
        Registry.chargeLedger_eq_ok_iff] at hselect
      obtain ⟨charged, ⟨rfl, -⟩, rfl, rfl⟩ := hselect
      -- the ledger is no part of the pulls
      obtain ⟨counted, hpulls⟩ := hadds.samePulls
      exact .inr ⟨_, pull, rfl, hpull, ⟨counted, hpulls.histories, hpulls.decisions⟩,
        hadds.pullsLogged⟩

end Arena

end ExposureControl
