import ExposureControl.Proofs.ArmListing
import ExposureControl.Proofs.SymbolSteps

/-!
# Symbols do not interfere

A history of the turns that concern one symbol, without those that are addressed to others, looks
the same for the symbol: its selections, its arms, its ledger and its pulls are those of the whole
history, once what was drawn is numbered as if nothing had been drawn for the others.  The seed
must be configured, for without one the two histories have different generators.  No arm may be
restored, which can take the place of an arm of another symbol, and pulls that are logged by hand
need decisions of their own, for under a decision in use they take it from its symbol.
-/

namespace ExposureControl

/-- The turns of a history that are addressed to a symbol, or to none. -/
def turnsFor (symbol : String) : List Turn → List Turn
  | [] => []
  | turn :: past =>
    if (turn.command.addressee? past turn.before).all fun owner => owner = symbol then
      turn :: turnsFor symbol past
    else turnsFor symbol past

/-- Whether a governor shows of a symbol what another one shows of it, under other names. -/
structure Governor.Resembles (names : Renaming) (symbol : String) (full reduced : Governor) :
    Prop where
  /-- Nothing but the arena differs. -/
  outside : reduced = { full with arena := reduced.arena }
  arms : ∀ id, reduced.registry.arms.find? (names.ofArmId id) =
    ((full.registry.arms.find? id).filter fun arm => arm.contest.symbol = symbol).map names.ofArm
  armsOf : ∀ contest, contest.symbol = symbol →
    reduced.registry.armsOf contest = (full.registry.armsOf contest).map names.ofArm
  allArms : (reduced.registry.allArms.filter fun arm => arm.contest.symbol = symbol) =
    (full.registry.allArms.filter fun arm => arm.contest.symbol = symbol).map names.ofArm
  history : reduced.registry.historyOf symbol = (full.registry.historyOf symbol).map names.ofPull
  ledger : reduced.registry.ledgers.find? symbol = full.registry.ledgers.find? symbol

/-- Whether a turn is another one under other names, as far as a symbol is concerned. -/
structure Turn.Resembles (names : Renaming) (symbol : String) (full reduced : Turn) : Prop where
  before : full.before.Resembles names symbol reduced.before
  command : reduced.command = names.ofCommand full.command
  /-- The answers are the same, unless they count over all symbols. -/
  answer : full.command.storeWide = false →
    reduced.answer = names.ofResult names.ofReply full.answer
  after : full.after.Resembles names symbol reduced.after

variable {shares : Shares} {symbol : String} {start governor next : Governor} {reduced : Arena}
  {turns : List Turn} {command : Command} {answer : Except Refusal Reply}

/-! ## What a mirror shows -/

/-- The arms of the symbol are listed in the same order. -/
theorem Registry.Mirrors.allArms {full reduced : Registry}
    (hmirrors : full.Mirrors shares symbol reduced) (hsound : full.Sound)
    (hsound' : reduced.Sound) :
    (reduced.allArms.filter fun arm => arm.contest.symbol = symbol) =
      (full.allArms.filter fun arm => arm.contest.symbol = symbol).map shares.names.ofArm := by
  obtain ⟨contests, hsorted, hmem, hlisted⟩ := exists_filter_allArms hsound symbol
  obtain ⟨contests', hsorted', hmem', hlisted'⟩ := exists_filter_allArms hsound' symbol
  have hsame : contests' = contests := by
    refine List.Perm.eq_of_pairwise (fun _ _ _ _ hlt hgt => absurd hlt hgt.not_gt) hsorted' hsorted
      ((List.perm_ext_iff_of_nodup ?_ ?_).mpr fun contest => ?_)
    · exact hsorted'.imp fun hlt heq => absurd (congrArg Contest.key heq) hlt.ne
    · exact hsorted.imp fun hlt heq => absurd (congrArg Contest.key heq) hlt.ne
    · rw [hmem', hmem, and_congr_right_iff]
      intro hown
      rw [hmirrors.armsOf hsound hown, ne_eq, List.map_eq_nil_iff]
  rw [hlisted', hlisted, hsame, List.map_flatMap]
  exact List.flatMap_congr fun contest hcontest =>
    hmirrors.armsOf hsound ((hmem contest).mp hcontest).1

theorem Arena.Mirrors.resembles (hmirrors : governor.arena.Mirrors shares symbol reduced)
    (hsound : governor.registry.Sound) (hsound' : reduced.registry.Sound) :
    governor.Resembles shares.names symbol { governor with arena := reduced } where
  outside := rfl
  arms := hmirrors.registry.arms
  armsOf _ hown := hmirrors.registry.armsOf hsound hown
  allArms := hmirrors.registry.allArms hsound hsound'
  history := hmirrors.registry.history
  ledger := hmirrors.registry.ledger

theorem Governor.Resembles.overview {names : Renaming} {full reduced : Governor}
    (hresembles : full.Resembles names symbol reduced) :
    reduced.overview symbol = full.overview symbol := by
  have hledger : reduced.registry.ledgerOn symbol full.clock =
      full.registry.ledgerOn symbol full.clock := by
    rw [Registry.ledgerOn, hresembles.ledger, Registry.ledgerOn]
  have harms := hresembles.allArms
  obtain ⟨arena, rfl⟩ : ∃ arena, reduced = { full with arena } := ⟨_, hresembles.outside⟩
  simp only [Governor.overview, Arena.overview, show arena.registry.allArms.filter _ = _ from harms,
    show arena.registry.ledgerOn symbol full.clock = _ from hledger, List.map_map, List.countP_map,
    List.length_map]
  rfl

/-! ## The share of a symbol in a history -/

namespace Shares

/-- Whether the shares have all that turns drew for a symbol, and nothing else of it. -/
def CoversTurns (shares : Shares) (symbol : String) : List Turn → Prop
  | [] => True
  | turn :: past =>
    shares.Covers (turn.command.addressee? past turn.before = some symbol) turn.before.arena
      turn.after.arena ∧ shares.CoversTurns symbol past

/-- Whether the shares end with what an arena drew last. -/
structure EndsAt (shares : Shares) (arena : Arena) : Prop where
  arms : shares.arms.bound = arena.registry.armsDrawn
  decisions : shares.decisions.bound = arena.decisionsDrawn
  pulls : shares.pulls.bound = arena.registry.pullsLogged

def empty : Shares := ⟨.empty, .empty, .empty⟩

theorem endsAt_empty : empty.EndsAt .empty := ⟨rfl, rfl, rfl⟩

/-- Shares go on with what is drawn next, for the symbol or not. -/
def extend (shares : Shares) (mine : Bool) (after : Arena) : Shares where
  arms := shares.arms.extend after.registry.armsDrawn mine
  decisions := shares.decisions.extend after.decisionsDrawn mine
  pulls := shares.pulls.extend after.registry.pullsLogged mine

variable {before after : Arena} {mine : Bool}

theorem EndsAt.extend (hends : shares.EndsAt before) (hdrawn : before.DrawnLe after) :
    (shares.extend mine after).EndsAt after where
  arms := Nat.max_eq_right (hends.arms ▸ hdrawn.arms)
  decisions := Nat.max_eq_right (hends.decisions ▸ hdrawn.decisions)
  pulls := Nat.max_eq_right (hends.pulls ▸ hdrawn.pulls)

theorem EndsAt.covers_extend (hends : shares.EndsAt before) :
    (shares.extend mine after).Covers mine before after where
  arms _ hlt hle := shares.arms.own_extend_of_lt (hends.arms ▸ hlt) hle
  decisions _ hlt hle := shares.decisions.own_extend_of_lt (hends.decisions ▸ hlt) hle
  pulls _ hlt hle := shares.pulls.own_extend_of_lt (hends.pulls ▸ hlt) hle

theorem Covers.extend {first last : Arena} {other : Bool}
    (hcovers : shares.Covers other first last) (hends : shares.EndsAt before)
    (hlast : last.DrawnLe before) : (shares.extend mine after).Covers other first last where
  arms serial hlt hle :=
    (shares.arms.own_extend_of_le (Nat.le_trans hle (hends.arms ▸ hlast.arms))).trans
      (hcovers.arms serial hlt hle)
  decisions serial hlt hle :=
    (shares.decisions.own_extend_of_le (Nat.le_trans hle (hends.decisions ▸ hlast.decisions))).trans
      (hcovers.decisions serial hlt hle)
  pulls serial hlt hle :=
    (shares.pulls.own_extend_of_le (Nat.le_trans hle (hends.pulls ▸ hlast.pulls))).trans
      (hcovers.pulls serial hlt hle)

theorem CoversTurns.extend (hcovers : shares.CoversTurns symbol turns)
    (hends : shares.EndsAt before) (hlast : ∀ turn ∈ turns, turn.after.arena.DrawnLe before) :
    (shares.extend mine after).CoversTurns symbol turns := by
  induction turns with
  | nil => trivial
  | cons turn past ih =>
    obtain ⟨hcover, hcovers⟩ := hcovers
    obtain ⟨hturn, hpast⟩ := List.forall_mem_cons.mp hlast
    exact ⟨hcover.extend hends hturn, ih hcovers hpast⟩

end Shares

/-- In every history that restores no arm the symbol has its share of what was drawn. -/
theorem History.exists_shares (hhistory : History start turns governor)
    (hempty : start.arena = .empty)
    (hrestores : ∀ turn ∈ turns, ∀ arm, turn.command ≠ .restoreArm arm) (symbol : String) :
    ∃ shares : Shares, shares.EndsAt governor.arena ∧ shares.CoversTurns symbol turns ∧
      ∀ turn ∈ turns, turn.after.arena.DrawnLe governor.arena := by
  induction hhistory with
  | start =>
    rw [hempty]
    exact ⟨.empty, Shares.endsAt_empty, trivial, fun _ => nofun⟩
  | @turn turns governor next command answer past step ih =>
    obtain ⟨-, hpast⟩ := List.forall_mem_cons.mp hrestores
    obtain ⟨shares, hends, hcovers, hbefore⟩ := ih hpast
    have hsound := past.sound_of_not_restores hempty hpast
    have hdrawn := (Governor.arenaStep_of_step step).1.drawnLe hsound
    refine ⟨shares.extend (command.addressee? turns governor = some symbol) next.arena,
      hends.extend hdrawn, ⟨hends.covers_extend, hcovers.extend hends hbefore⟩, ?_⟩
    exact List.forall_mem_cons.mpr ⟨.refl next.arena, fun turn hturn =>
      (hbefore turn hturn).trans hdrawn⟩

/-! ## The history of a symbol -/

/-- A turn concerns the symbol and is kept, or it is addressed to another symbol and is left out. -/
theorem turnsFor_cases (symbol : String) (turn : Turn) (past : List Turn) :
    ((∀ owner, turn.command.addressee? past turn.before = some owner → owner = symbol) ∧
        turnsFor symbol (turn :: past) = turn :: turnsFor symbol past) ∨
      ∃ other, turn.command.addressee? past turn.before = some other ∧ other ≠ symbol ∧
        turnsFor symbol (turn :: past) = turnsFor symbol past := by
  cases haddressee : turn.command.addressee? past turn.before with
  | none => exact .inl ⟨nofun, by rw [turnsFor, haddressee]; rfl⟩
  | some other =>
    by_cases hother : other = symbol
    · refine .inl ⟨fun owner howner => (Option.some.inj howner) ▸ hother, ?_⟩
      rw [turnsFor, haddressee, Option.all_some, if_pos (decide_eq_true hother)]
    · refine .inr ⟨other, rfl, hother, ?_⟩
      rw [turnsFor, haddressee, Option.all_some, if_neg (by simpa using hother)]

theorem Renaming.ofCommand_not_restores (names : Renaming)
    (hrestores : ∀ arm, command ≠ .restoreArm arm) (arm : Arm) :
    names.ofCommand command ≠ .restoreArm arm := by
  cases command with
  | restoreArm restored => exact absurd rfl (hrestores restored)
  | _ => exact nofun

/-- The turns that concern a symbol can be carried out alone. -/
theorem History.exists_mirror (hhistory : History start turns governor)
    (hempty : start.arena = .empty)
    (hrestores : ∀ turn ∈ turns, ∀ arm, turn.command ≠ .restoreArm arm)
    (hlogs : logsAfresh turns = true) (hcovers : shares.CoversTurns symbol turns) :
    ∃ reducedTurns reduced, History start reducedTurns { governor with arena := reduced } ∧
      (∀ turn ∈ reducedTurns, ∀ arm, turn.command ≠ .restoreArm arm) ∧
      governor.arena.Mirrors shares symbol reduced ∧
      List.Forall₂ (Turn.Resembles shares.names symbol) (turnsFor symbol turns) reducedTurns := by
  induction hhistory with
  | start =>
    refine ⟨[], start.arena, .start, fun _ => nofun, ?_, .nil⟩
    rw [hempty]
    exact .empty shares symbol
  | @turn turns governor next command answer past step ih =>
    obtain ⟨hcommand, hpast⟩ := List.forall_mem_cons.mp hrestores
    obtain ⟨hafresh, hlogged⟩ := logsAfresh_cons_iff.mp hlogs
    obtain ⟨hcover, hcovers⟩ := hcovers
    obtain ⟨reducedTurns, reduced, hreduced, hkeeps, hmirrors, hresemble⟩ :=
      ih hpast hlogged hcovers
    have hattributed := past.attributed hempty hpast hlogged
    have hsound := past.sound_of_not_restores hempty hpast
    have hsound' := hreduced.sound_of_not_restores hempty hkeeps
    have hafter := (past.turn step).sound_of_not_restores hempty hrestores
    obtain ⟨hconcerns, hkept⟩ | ⟨other, haddressee, hother, hleft⟩ :=
      turnsFor_cases symbol ⟨governor, command, answer, next⟩ turns
    · obtain ⟨reducedNext, reply, hstep, hnext, hanswer⟩ := Governor.echoes_of_step hmirrors
        hsound hsound' hattributed hcommand hconcerns hcover step
      let alone : Turn := ⟨{ governor with arena := reduced }, shares.names.ofCommand command,
        reply, { next with arena := reducedNext }⟩
      have hkeepsNext : ∀ turn ∈ alone :: reducedTurns, ∀ arm, turn.command ≠ .restoreArm arm :=
        List.forall_mem_cons.mpr ⟨shares.names.ofCommand_not_restores hcommand, hkeeps⟩
      have hafter' := (hreduced.turn hstep).sound_of_not_restores hempty hkeepsNext
      refine ⟨alone :: reducedTurns, reducedNext, hreduced.turn hstep, hkeepsNext, hnext, ?_⟩
      rw [hkept]
      exact .cons ⟨hmirrors.resembles hsound hsound', rfl, hanswer,
        hnext.resembles hafter hafter'⟩ hresemble
    · obtain ⟨hnext, hidle⟩ : next = { governor with arena := next.arena } ∧
          next.arena.Mirrors shares symbol reduced :=
        Governor.mirrors_of_step_of_other hmirrors hsound hattributed hcommand hafresh haddressee
          hother hcover step
      have hsame : ({ next with arena := reduced } : Governor) =
          { governor with arena := reduced } := by rw [hnext]
      rw [hleft]
      exact ⟨reducedTurns, reduced, hsame ▸ hreduced, hkeeps, hidle, hresemble⟩

/-- With a seed, a new governor is the same whatever the entropy. -/
theorem Governor.create_of_seed {settings : Settings} (hseed : settings.selection.seed ≠ none)
    (entropy entropy' : Seeding) (notifier : Notifier) (clock : Instant) :
    create settings entropy' notifier clock = create settings entropy notifier clock := by
  obtain ⟨seed, hseed⟩ := Option.ne_none_iff_exists'.mp hseed
  simp only [create, Seeding.ofSettings, hseed]

/-- With a seed, whatever is done to other symbols has no effect on a symbol: the turns that
concern it, carried out alone from a new governor, resemble those of the whole history one by one,
and so does the governor to which they lead.  Arms are not restored, and pulls are put on record by
selections, or by hand under decisions of their own. -/
theorem symbols_isolated {settings : Settings} {entropy : Seeding} {notifier : Notifier}
    {clock : Instant} (hseed : settings.selection.seed ≠ none)
    (hcreate : Governor.create settings entropy notifier clock = .ok start)
    (hhistory : History start turns governor)
    (hrestores : ∀ turn ∈ turns, ∀ arm, turn.command ≠ .restoreArm arm)
    (hlogs : logsAfresh turns = true) (symbol : String) (entropy' : Seeding) :
    ∃ names alone aloneTurns final,
      Governor.create settings entropy' notifier clock = .ok alone ∧
      History alone aloneTurns final ∧
      List.Forall₂ (Turn.Resembles names symbol) (turnsFor symbol turns) aloneTurns ∧
      governor.Resembles names symbol final := by
  obtain ⟨-, -, hempty⟩ := Governor.create_eq_ok hcreate
  obtain ⟨shares, -, hcovers, -⟩ := hhistory.exists_shares hempty hrestores symbol
  obtain ⟨aloneTurns, reduced, halone, hkeeps, hmirrors, hresemble⟩ :=
    hhistory.exists_mirror hempty hrestores hlogs hcovers
  have hsound := hhistory.sound_of_not_restores hempty hrestores
  have hsound' := halone.sound_of_not_restores hempty hkeeps
  refine ⟨shares.names, start, aloneTurns, _, ?_, halone, hresemble,
    hmirrors.resembles hsound hsound'⟩
  rw [Governor.create_of_seed hseed entropy]
  exact hcreate

/-- Two symbols with an arm of the same preset, served in turn, where a pull of each is logged by
hand: the turns of the one, without those of the other, are carried out alike from other entropy. -/
theorem symbols_isolated_of_interleaved :
    ∃ start turns governor,
      Governor.create { selection := { policy := .thompson, seed := some 7 } } 0 .log ⟨0⟩ =
        .ok start ∧
      History start turns governor ∧
      (∀ turn ∈ turns, ∀ arm, turn.command ≠ .restoreArm arm) ∧ logsAfresh turns = true ∧
      turns.length = 11 ∧ (turnsFor "ETH" turns).length = 6 ∧
      (turnsFor "ETH" turns).filterMap Turn.filed? =
        [(.drawn .decisions 3, "ETH"), (.given "drill", "ETH"), (.drawn .decisions 2, "ETH")] ∧
      ∃ names alone aloneTurns final,
        Governor.create { selection := { policy := .thompson, seed := some 7 } } 1 .log ⟨0⟩ =
          .ok alone ∧
        History alone aloneTurns final ∧
        List.Forall₂ (Turn.Resembles names "ETH") (turnsFor "ETH" turns) aloneTurns ∧
        governor.Resembles names "ETH" final := by
  let contest (symbol : String) : Contest := ⟨symbol, "UP", .buy⟩
  let offer (preset : Nat) : Offer := ⟨.given ⟨preset⟩, .baseline⟩
  let commands : List Command :=
    [.ensureArms (contest "BTC") [offer 1], .ensureArms (contest "ETH") [offer 1, offer 2],
      .select (contest "BTC") .empty, .select (contest "ETH") .empty,
      .recordOutcome (.drawn .decisions 1) ⟨0.5, 0.5, 0.0, 0.0⟩,
      .recordOutcome (.drawn .decisions 2) ⟨0.7, 0.7, 0.0, 0.0⟩,
      .logPull (.drawn .arms 1) (.given "trial") .empty ⟨3600000000⟩ ⟨0⟩,
      .logPull (.drawn .arms 2) (.given "drill") .empty ⟨3600000000⟩ ⟨0⟩,
      .setPresetStatus (.given ⟨1⟩) .blocked, .setStatus (.drawn .arms 1) .eligible,
      .select (contest "ETH") .empty]
  obtain ⟨start, turns, governor, hcreate, hhistory, hcommands, hcheck⟩ :=
    Governor.exists_history_of_replays { selection := { policy := .thompson, seed := some 7 } }
      commands (fun turns _ =>
        logsAfresh turns && turns.length == 11 && (turnsFor "ETH" turns).length == 6 &&
        (turnsFor "ETH" turns).filterMap Turn.filed? ==
          [(.drawn .decisions 3, "ETH"), (.given "drill", "ETH"), (.drawn .decisions 2, "ETH")])
      (by decide +kernel)
  simp only [Bool.and_eq_true, beq_iff_eq] at hcheck
  obtain ⟨⟨⟨hlogs, hall⟩, hkept⟩, hfiled⟩ := hcheck
  have hrestores : ∀ turn ∈ turns, ∀ arm, turn.command ≠ .restoreArm arm := by
    intro turn hturn arm hrestore
    have hcommand := Turn.command_mem hcommands hturn
    rw [hrestore] at hcommand
    simp [commands] at hcommand
  exact ⟨start, turns, governor, hcreate, hhistory, hrestores, hlogs, hall, hkept, hfiled,
    symbols_isolated (by decide) hcreate hhistory hrestores hlogs "ETH" 1⟩

end ExposureControl
