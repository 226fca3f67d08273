import ExposureControl.Shadow.Engine

/-!
# The positions of a symbol

What every change of the shadow book makes of the positions of one symbol, as an equation of
lists.  From these equations follows what a call of the engine makes of them.
-/

namespace ExposureControl.Shadow

namespace Position

@[simp]
theorem isOpen_create (id : ObjectId) (ticket : Ticket) (now : Instant) :
    (create id ticket now).isOpen = true := rfl

@[simp]
theorem isOpen_closedAtPrice (price : Float) (now : Instant) (position : Position) :
    (position.closedAtPrice price now).isOpen = false := rfl

@[simp]
theorem id_closedAtPrice (price : Float) (now : Instant) (position : Position) :
    (position.closedAtPrice price now).id = position.id := rfl

@[simp]
theorem symbol_closedAtPrice (price : Float) (now : Instant) (position : Position) :
    (position.closedAtPrice price now).symbol = position.symbol := rfl

end Position

namespace Book

variable {symbol : String} {price : Float} {now : Instant} {book : Book}

def settle (price : Float) (now : Instant) (position : Position) : Position :=
  if closes price position then position.closedAtPrice price now else position

@[simp]
theorem id_settle (position : Position) : (settle price now position).id = position.id := by
  unfold settle
  split <;> rfl

@[simp]
theorem symbol_settle (position : Position) :
    (settle price now position).symbol = position.symbol := by
  unfold settle
  split <;> rfl

theorem settle_eq_of_isOpen {position : Position}
    (hopen : (settle price now position).isOpen = true) : settle price now position = position := by
  unfold settle at hopen ⊢
  split at hopen
  · cases hopen
  · next hkept => exact if_neg hkept

theorem ofSymbol_insert (position : Position) :
    (book.insert position).ofSymbol symbol =
      if position.symbol = symbol then book.ofSymbol symbol ++ [position]
      else book.ofSymbol symbol := by
  rw [ofSymbol, insert, Table.find?_update]
  by_cases hsymbol : position.symbol = symbol
  · rw [if_pos hsymbol.symm, if_pos hsymbol, Option.getD_some, hsymbol, ofSymbol]
  · rw [if_neg (Ne.symm hsymbol), if_neg hsymbol, ofSymbol]

/-- A position that is put on record goes to the end of its symbol's list, and the one that it
replaces goes. -/
theorem ofSymbol_restore (position : Position) :
    (book.restore position).1.ofSymbol symbol =
      if position.symbol = symbol then
        (extract position.id (book.ofSymbol symbol)).2 ++ [position]
      else book.ofSymbol symbol := by
  dsimp only [restore]
  rw [ofSymbol, Table.find?_insert]
  by_cases hsymbol : position.symbol = symbol
  · rw [if_pos hsymbol.symm, if_pos hsymbol, Option.getD_some, hsymbol]
  · rw [if_neg (Ne.symm hsymbol), if_neg hsymbol, ofSymbol]

/-- A price settles every position of its symbol and gives those that it closes. -/
theorem of_trigger {next : Book} {closed : List Position}
    (htrigger : book.trigger symbol price now = .ok (next, closed)) :
    (∀ other, next.ofSymbol other =
        if symbol = other then (book.ofSymbol other).map (settle price now)
        else book.ofSymbol other) ∧
      closed =
        ((book.ofSymbol symbol).filter (closes price)).map (Position.closedAtPrice price now) := by
  unfold trigger at htrigger
  split at htrigger
  · next hfound =>
    have hnone : book.ofSymbol symbol = [] := by rw [ofSymbol, hfound, Option.getD_none]
    simp only [Except.ok.injEq, Prod.mk.injEq] at htrigger
    rw [← htrigger.1, ← htrigger.2, hnone]
    refine ⟨fun other => ?_, rfl⟩
    split
    · next hsame => rw [← hsame, hnone, List.map_nil]
    · rfl
  · next positions hfound =>
    have hpositions : book.ofSymbol symbol = positions := by
      rw [ofSymbol, hfound, Option.getD_some]
    dsimp only at htrigger
    split at htrigger
    · simp only [Except.ok.injEq, Prod.mk.injEq] at htrigger
      rw [← htrigger.1, ← htrigger.2, hpositions]
      refine ⟨fun other => ?_, rfl⟩
      rw [ofSymbol, Table.find?_insert]
      by_cases hsame : symbol = other
      · rw [if_pos hsame.symm, if_pos hsame, Option.getD_some, ← hsame, hpositions]
        rfl
      · rw [if_neg (Ne.symm hsame), if_neg hsame, ofSymbol]
    · cases htrigger

/-- A price can be acted on exactly when every position that it closes can be counted once
more. -/
theorem exists_trigger_iff :
    (∃ done, book.trigger symbol price now = .ok done) ↔
      ∀ position ∈ book.ofSymbol symbol, closes price position = true →
        position.countable = true := by
  unfold trigger ofSymbol
  split
  · next hfound => simp [hfound]
  · next positions hfound =>
    rw [hfound, Option.getD_some]
    dsimp only
    split
    · next hcountable =>
      rw [List.all_eq_true] at hcountable
      simp only [Except.ok.injEq, exists_eq', true_iff]
      exact fun position hposition hcloses =>
        hcountable position (List.mem_filter.mpr ⟨hposition, hcloses⟩)
    · next hfull =>
      simp only [reduceCtorEq, exists_false, false_iff]
      intro hcountable
      refine hfull (List.all_eq_true.mpr fun position hposition => ?_)
      obtain ⟨hmember, hcloses⟩ := List.mem_filter.mp hposition
      exact hcountable position hmember hcloses

/-- Pruning keeps of every symbol the positions that outlive the cutoff, in their order. -/
theorem ofSymbol_pruneBefore (cutoff : Instant) :
    (book.pruneBefore cutoff).1.ofSymbol symbol =
      (book.ofSymbol symbol).filter (outlives cutoff) := by
  rw [ofSymbol, ofSymbol, pruneBefore, Table.find?_mapValues]
  cases book.positions.find? symbol <;> rfl

/-- An open position outlives every cutoff. -/
theorem outlives_of_isOpen {cutoff : Instant} {position : Position}
    (hopen : position.isOpen = true) : outlives cutoff position = true := by
  rw [outlives, hopen, Bool.true_or]

/-- Taking the first position of one identifier out leaves the positions of every other one. -/
theorem filter_extract {id other : ObjectId} (hother : other ≠ id) (positions : List Position) :
    (extract id positions).2.filter (fun position => decide (position.id = other)) =
      positions.filter fun position => decide (position.id = other) := by
  induction positions with
  | nil => rfl
  | cons position rest ih =>
    unfold extract
    split
    · next hid => rw [List.filter_cons_of_neg (by simp [hid, hother.symm])]
    · dsimp only
      rw [List.filter_cons, List.filter_cons, ih]

theorem mem_of_mem_extract {id : ObjectId} {position : Position} {positions : List Position}
    (hposition : position ∈ (extract id positions).2) : position ∈ positions := by
  induction positions with
  | nil => cases hposition
  | cons first rest ih =>
    unfold extract at hposition
    split at hposition
    · exact List.mem_cons_of_mem first hposition
    · cases List.mem_cons.mp hposition with
      | inl hfirst => exact hfirst ▸ List.mem_cons_self
      | inr hrest => exact List.mem_cons_of_mem first (ih hrest)

end Book

end ExposureControl.Shadow
