import ExposureControl.Proofs.ArmOrigin

/-!
# Blocking a preset

A block of a preset is kept by its arms, not by the preset.  Until it is lifted, all arms of the
preset that were on record stay blocked, whatever else happens; an arm that is created for the
preset later on, in a contest that had none, is eligible all the same.  So these are the only arms
of the preset that a selection can still take.
-/

namespace ExposureControl

/-- Whether a command may lift the block of a preset from one of its arms. -/
def Command.lifts (preset : ObjectId) : Command → Bool
  | .setPresetStatus other status => other = preset && status = .eligible
  | .setStatus _ status => status = .eligible
  | .restoreArm _ => true
  | _ => false

/-- Whether a turn creates an arm for an offer of a preset that no arm of the contest met. -/
structure Turn.Supplies (turn : Turn) (preset : ObjectId) (contest : Contest) (id : ObjectId) :
    Prop where
  offered : ∃ offers, turn.command = .ensureArms contest offers ∧
    ∃ offer ∈ offers, offer.preset = preset
  unmet : turn.before.registry.armOffering? contest preset = none
  missing : turn.before.registry.arms.find? id = none
  created : ∃ arm, turn.after.registry.arms.find? id = some arm ∧ arm.preset = preset ∧
    arm.contest = contest

/-- Whether every arm of a preset is blocked, but for those that one of the turns created for the
only contest that lists them. -/
def HeldBack (preset : ObjectId) (turns : List Turn) (registry : Registry) : Prop :=
  ∀ id arm, registry.arms.find? id = some arm → arm.preset = preset →
    arm.status = .blocked ∨ ∃ contest,
      (∀ other, id ∈ registry.idsOf other → other = contest) ∧
      ∃ turn ∈ turns, turn.Supplies preset contest id

variable {preset : ObjectId} {start middle governor : Governor} {turns later past : List Turn}

/-! ## One step -/

theorem heldBack_of_block (preset : ObjectId) (now : Instant) (registry : Registry) :
    HeldBack preset [] (registry.setPresetStatus preset .blocked now).1 := by
  intro id arm hfound hpreset
  rw [Registry.find?_setPresetStatus] at hfound
  obtain ⟨known, -, hchanged⟩ := Option.map_eq_some_iff.mp hfound
  split at hchanged
  · subst hchanged
    exact .inl rfl
  · next hother =>
    subst hchanged
    exact absurd hpreset hother

theorem ArenaStep.heldBack_of_block {governor : Governor} {answer : Except Refusal Reply}
    {arena : Arena} (hstep : ArenaStep governor (.setPresetStatus preset .blocked) answer arena) :
    HeldBack preset [] arena.registry := by
  cases hstep with
  | setPresetStatus => exact ExposureControl.heldBack_of_block preset _ _
  | spared himpossible | report himpossible | prune himpossible => cases himpossible

/-- A step that does not lift the block leaves no other arm of the preset eligible than one that it
creates. -/
theorem HeldBack.next (turn : Turn) (hheld : HeldBack preset turns turn.before.registry)
    (hgrounded : turn.before.registry.Grounded)
    (hstep : RosterStep turn.before.registry turn.before.clock turn.command turn.after.registry)
    (hlifts : turn.command.lifts preset = false) :
    HeldBack preset (turn :: turns) turn.after.registry := by
  have hcommand : ∀ arm, turn.command ≠ .restoreArm arm := by
    intro arm hrestore
    rw [hrestore] at hlifts
    cases hlifts
  intro id arm hfound hpreset
  cases hstep.arm_origin hgrounded hfound with
  | @kept known hknown hsamePreset hstatus =>
    rw [hstatus]
    apply (hheld id known hknown (hsamePreset.symm.trans hpreset)).imp_right
    intro hsupplied
    obtain ⟨contest, hhome, supply, hmem, hsupply⟩ := hsupplied
    refine ⟨contest, fun other hlisted => ?_, supply, List.mem_cons_of_mem _ hmem, hsupply⟩
    cases hstep.unlisted hgrounded hcommand hlisted with
    | inl hbefore => exact hhome other hbefore
    | inr hnew =>
      rw [hnew.1] at hknown
      cases hknown
  | restated hknown _ hgiven =>
    apply Or.inl
    cases hstatus : arm.status with
    | blocked => rfl
    | eligible =>
      cases hgiven with
      | inl hsingle =>
        rw [hsingle, hstatus] at hlifts
        cases hlifts
      | inr hall =>
        rw [hall, hstatus, hpreset] at hlifts
        simp [Command.lifts] at hlifts
  | restored hrestore => exact absurd hrestore (hcommand arm)
  | @supplied offers hensure hmissing hoffered hnone =>
    rw [hpreset] at hoffered hnone
    refine .inr ⟨arm.contest, fun other hlisted => ?_, turn, List.mem_cons_self,
      ⟨offers, hensure, hoffered⟩, hnone, hmissing, arm, hfound, hpreset, rfl⟩
    cases hstep.unlisted hgrounded hcommand hlisted with
    | inl hbefore =>
      obtain ⟨known, hknown⟩ := hgrounded.on_record hbefore
      rw [hmissing] at hknown
      cases hknown
    | inr hnew =>
      obtain ⟨-, _, hsame⟩ := hnew
      rw [hensure] at hsame
      cases hsame
      rfl

/-- What a step selects is an eligible arm that is listed for the contest. -/
theorem ArenaStep.eligible_of_selected {governor next : Governor} {command : Command}
    {answer : Except Refusal Reply} (hstep : ArenaStep governor command answer next.arena)
    (hgrounded : governor.registry.Grounded) {contest : Contest} {selection : Selection}
    (hselected :
      (⟨governor, command, answer, next⟩ : Turn).selected? = some (contest, selection)) :
    selection.arm ∈ governor.registry.idsOf contest ∧
      ∃ arm, governor.registry.arms.find? selection.arm = some arm ∧
        arm.preset = selection.preset ∧ arm.status = .eligible := by
  obtain ⟨context, hselect⟩ := hstep.select_of_selected hselected
  obtain ⟨himpossible, -⟩ | ⟨arm, harm, hanswer, -⟩ := Arena.ledgers_select hselect
  · obtain ⟨refusal, hrefused⟩ := himpossible
    cases hrefused
  · obtain rfl := Except.ok.inj hanswer
    obtain ⟨hlisted, heligible, -⟩ := (Arena.mem_offered_iff _ _ _ _ arm).mp harm
    obtain ⟨id, hmem, hfound⟩ := List.mem_filterMap.mp hlisted
    obtain rfl := hgrounded.id_eq hfound
    exact ⟨hmem, arm, hfound, rfl, of_decide_eq_true heligible⟩

/-! ## Histories -/

/-- A history that restores no arm under an identifier yet to be drawn keeps the registry
grounded. -/
theorem History.grounded (hhistory : History start turns governor)
    (hstart : start.registry.Grounded) (hdrawn : ∀ turn ∈ turns, turn.RestoresDrawn) :
    governor.registry.Grounded := by
  induction hhistory with
  | start => exact hstart
  | turn past step ih =>
    obtain ⟨hnow, hpast⟩ := List.forall_mem_cons.mp hdrawn
    exact (Governor.arenaStep_of_step step).1.roster.grounded (ih hpast) hnow

/-- A history that restores no arm keeps what is on record and what is listed. -/
theorem History.extended (hhistory : History start turns governor)
    (hstart : start.registry.Grounded)
    (hcommands : ∀ turn ∈ turns, ∀ arm, turn.command ≠ .restoreArm arm) :
    Registry.Extends start.registry governor.registry := by
  have hdrawn : ∀ {turns : List Turn}, (∀ turn ∈ turns, ∀ arm, turn.command ≠ .restoreArm arm) →
      ∀ turn ∈ turns, turn.RestoresDrawn := fun hcommands turn hturn arm _ hrestore =>
    absurd hrestore (hcommands turn hturn arm)
  induction hhistory with
  | start => exact .refl _
  | turn past step ih =>
    obtain ⟨hnow, hpast⟩ := List.forall_mem_cons.mp hcommands
    have hstep := (Governor.arenaStep_of_step step).1.roster
    exact (ih hpast).trans (hstep.extended (past.grounded hstart (hdrawn hpast)) hnow)

/-- Until the block is lifted, only arms that were created since are not blocked. -/
theorem History.heldBack (hlater : History middle later governor)
    (hmiddle : middle.registry.Grounded) (hheld : HeldBack preset [] middle.registry)
    (hdrawn : ∀ turn ∈ later, turn.RestoresDrawn)
    (hlifts : ∀ turn ∈ later, turn.command.lifts preset = false) :
    HeldBack preset later governor.registry := by
  induction hlater with
  | start => exact hheld
  | @turn turns before after command answer past step ih =>
    obtain ⟨hnowDrawn, hpastDrawn⟩ := List.forall_mem_cons.mp hdrawn
    obtain ⟨hnowLifts, hpastLifts⟩ := List.forall_mem_cons.mp hlifts
    have hbefore := ih hpastDrawn hpastLifts
    have hstep := (Governor.arenaStep_of_step step).1.roster
    exact HeldBack.next ⟨before, command, answer, after⟩ hbefore
      (past.grounded hmiddle hpastDrawn) hstep hnowLifts

section

variable {settings : Settings} {entropy : Seeding} {notifier : Notifier} {clock : Instant}

/-- After a preset was blocked, and until the block may be lifted from one of its arms, an arm of
the preset is selected only if it was created in the meantime, for an offer of the preset to the
contest of the selection.  This contest had no arm of the preset when the preset was blocked; so a
contest that had one has the preset blocked all the time. -/
theorem selected_after_block {block turn : Turn} {contest : Contest} {selection : Selection}
    (hcreate : Governor.create settings entropy notifier clock = .ok start)
    (hhistory : History start (turn :: later ++ block :: past) governor)
    (hdrawn : ∀ other ∈ past, other.RestoresDrawn)
    (hblock : block.command = .setPresetStatus preset .blocked)
    (hlifts : ∀ other ∈ later, other.command.lifts preset = false)
    (hselected : turn.selected? = some (contest, selection))
    (hpreset : selection.preset = preset) :
    block.after.registry.arms.find? selection.arm = none ∧
      block.after.registry.armOffering? contest preset = none ∧
      ∃ supply ∈ later, supply.Supplies preset contest selection.arm := by
  obtain ⟨-, -, hempty⟩ := Governor.create_eq_ok hcreate
  have hstart : start.registry.Grounded := by
    rw [Governor.registry, hempty]
    exact Registry.sound_empty.grounded
  have hcommands : ∀ other ∈ later, ∀ arm, other.command ≠ .restoreArm arm := by
    intro other hother arm hrestore
    have hlifted := hlifts other hother
    rw [hrestore] at hlifted
    cases hlifted
  obtain ⟨blocked, hpast, hlater⟩ := hhistory.of_append
  obtain ⟨hblocked, hgrounded, hheld⟩ : blocked = block.after ∧ blocked.registry.Grounded ∧
      HeldBack preset [] blocked.registry := by
    cases hpast with
    | turn hearlier hstep =>
      dsimp only at hblock
      subst hblock
      have hstep := (Governor.arenaStep_of_step hstep).1
      have hbefore := hearlier.grounded hstart hdrawn
      refine ⟨rfl, hstep.roster.grounded hbefore fun arm _ hrestore => ?_, hstep.heldBack_of_block⟩
      cases hrestore
  cases hlater with
  | turn hlater hstep =>
    have hdrawnLater : ∀ other ∈ later, other.RestoresDrawn := fun other hother arm _ hrestore =>
      absurd hrestore (hcommands other hother arm)
    obtain ⟨hlisted, arm, hfound, hsame, heligible⟩ :=
      (Governor.arenaStep_of_step hstep).1.eligible_of_selected
        (hlater.grounded hgrounded hdrawnLater) hselected
    cases hlater.heldBack hgrounded hheld hdrawnLater hlifts _ arm hfound (hsame.trans hpreset) with
    | inl hstatus =>
      rw [heligible] at hstatus
      cases hstatus
    | inr hsupplied =>
      obtain ⟨home, hhome, supply, hsupply, hsupplies⟩ := hsupplied
      obtain rfl := hhome contest hlisted
      -- what the contest lacked when the arm was created, it lacked at the block as well
      obtain ⟨earlier, hearlier, hsubset, -⟩ := hlater.exists_past hsupply
      have hextended := hearlier.extended hgrounded fun other hother =>
        hcommands other (hsubset hother)
      rw [← hblocked]
      exact ⟨hextended.find?_eq_none hsupplies.missing,
        hextended.armOffering?_eq_none hsupplies.unmet, supply, hsupply, hsupplies⟩

end

/-- How many arms a turn touched, where its answer is a count. -/
def Turn.touched? (turn : Turn) : Option Nat :=
  match turn.answer with
  | .ok (.count touched) => some touched
  | _ => none

theorem Turn.answer_of_touched {turn : Turn} {touched : Nat}
    (htouched : turn.touched? = some touched) : turn.answer = .ok (.count touched) := by
  unfold Turn.touched? at htouched
  split at htouched
  · next hanswer => rw [hanswer, Option.some.inj htouched]
  · cases htouched

theorem exists_selection_after_block :
    ∃ (start : Governor) (past : List Turn) (block : Turn) (later : List Turn) (turn : Turn)
      (governor : Governor) (contest : Contest) (selection : Selection),
      Governor.create { selection := { policy := .ucb1 } } 0 .log ⟨0⟩ = .ok start ∧
      History start (turn :: later ++ block :: past) governor ∧
      (∀ other ∈ past, other.RestoresDrawn) ∧
      block.command = .setPresetStatus (.given ⟨1⟩) .blocked ∧ block.answer = .ok (.count 1) ∧
      (∀ other ∈ later, other.command.lifts (.given ⟨1⟩) = false) ∧
      turn.selected? = some (contest, selection) ∧ selection.preset = .given ⟨1⟩ := by
  obtain ⟨start, turns, governor, hcreate, hhistory, hcommands, hcheck⟩ :=
    Governor.exists_history_of_replays { selection := { policy := .ucb1 } }
      [.ensureArms ⟨"BTC", "UP", .buy⟩ [⟨.given ⟨1⟩, .baseline⟩],
        .setPresetStatus (.given ⟨1⟩) .blocked,
        .ensureArms ⟨"ETH", "UP", .buy⟩ [⟨.given ⟨1⟩, .baseline⟩],
        .select ⟨"ETH", "UP", .buy⟩ .empty]
      (fun turns _ => turns[2]?.any (fun block => block.touched? = some 1) &&
        turns[0]?.any fun turn => turn.selected?.any fun selected =>
          selected.2.preset = .given ⟨1⟩) (by decide +kernel)
  simp only [List.reverse_eq_iff, List.reverse_cons, List.reverse_nil, List.nil_append,
    List.cons_append, List.map_eq_cons_iff, List.map_eq_nil_iff] at hcommands
  obtain ⟨turn, _, rfl, -, supply, _, rfl, hsupply, block, _, rfl, hblock, provision, _, rfl,
    hprovision, rfl⟩ := hcommands
  simp only [List.getElem?_cons_succ, List.getElem?_cons_zero, Option.any_some,
    Bool.and_eq_true, decide_eq_true_eq, Option.any_eq_true] at hcheck
  obtain ⟨htouched, ⟨contest, selection⟩, hselected, hpreset⟩ := hcheck
  refine ⟨start, [provision], block, [supply], turn, governor, contest, selection, hcreate,
    hhistory, ?_, hblock, Turn.answer_of_touched htouched, ?_, hselected, hpreset⟩
  · intro other hother arm serial hrestore
    rw [List.mem_singleton.mp hother, hprovision] at hrestore
    cases hrestore
  · intro other hother
    rw [List.mem_singleton.mp hother, hsupply]
    rfl

/-- The arm that is selected in spite of the block was created after it. -/
theorem selected_after_block_elsewhere :
    ∃ (start : Governor) (past : List Turn) (block : Turn) (later : List Turn) (turn : Turn)
      (governor : Governor) (contest : Contest) (selection : Selection),
      Governor.create { selection := { policy := .ucb1 } } 0 .log ⟨0⟩ = .ok start ∧
      History start (turn :: later ++ block :: past) governor ∧
      (∀ other ∈ past, other.RestoresDrawn) ∧
      block.command = .setPresetStatus (.given ⟨1⟩) .blocked ∧
      (∀ other ∈ later, other.command.lifts (.given ⟨1⟩) = false) ∧
      turn.selected? = some (contest, selection) ∧ selection.preset = .given ⟨1⟩ ∧
      block.after.registry.arms.find? selection.arm = none ∧
      block.after.registry.armOffering? contest (.given ⟨1⟩) = none ∧
      ∃ supply ∈ later, supply.Supplies (.given ⟨1⟩) contest selection.arm := by
  obtain ⟨start, past, block, later, turn, governor, contest, selection, hcreate, hhistory, hdrawn,
    hblock, -, hlifts, hselected, hpreset⟩ := exists_selection_after_block
  exact ⟨start, past, block, later, turn, governor, contest, selection, hcreate, hhistory, hdrawn,
    hblock, hlifts, hselected, hpreset,
    selected_after_block hcreate hhistory hdrawn hblock hlifts hselected hpreset⟩

/-- A successful block does not keep a preset from being selected. -/
theorem selected_in_spite_of_block :
    ∃ (start : Governor) (past : List Turn) (block : Turn) (later : List Turn) (turn : Turn)
      (governor : Governor) (contest : Contest) (selection : Selection),
      Governor.create { selection := { policy := .ucb1 } } 0 .log ⟨0⟩ = .ok start ∧
      History start (turn :: later ++ block :: past) governor ∧
      block.command = .setPresetStatus (.given ⟨1⟩) .blocked ∧ block.answer = .ok (.count 1) ∧
      (∀ other ∈ later, other.command.lifts (.given ⟨1⟩) = false) ∧
      turn.selected? = some (contest, selection) ∧ selection.preset = .given ⟨1⟩ := by
  obtain ⟨start, past, block, later, turn, governor, contest, selection, hcreate, hhistory, -,
    hblock, hanswer, hlifts, hselected, hpreset⟩ := exists_selection_after_block
  exact ⟨start, past, block, later, turn, governor, contest, selection, hcreate, hhistory, hblock,
    hanswer, hlifts, hselected, hpreset⟩

end ExposureControl
