import Blade.State.Executor

/-!
Snapshots and the access list over whole runs of the journaled host calls
(`Transition.Snapshot`, `RevertToSnapshot`, `AddAddressToAccessList`, `AddSlotToAccessList`).
`Snapshot` pushes a revision with the journal's length, and `RevertToSnapshot` replays the
journal down to it. A run in which no addition was redundant is undone exactly: reverting to a
revision still on the stack gives back the access list, the journal and the stack of the moment
it was taken. A redundant addition is not: its undo entry deletes what was already there.
-/

namespace Blade

open Lib

/-- The journaled host calls of a frame. -/
inductive JournalOp
  | addAddressToAccessList (addr : Address)
  | addSlotToAccessList (addr : Address) (slot : Hash)
  | snapshot
  | revertToSnapshot (id : ℕ)

/-- One call; a failed revert keeps the transition it returns. -/
def JournalOp.exec : JournalOp → Transition → Transition
  | .addAddressToAccessList addr, t => t.addAddressToAccessList addr
  | .addSlotToAccessList addr slot, t => t.addSlotToAccessList addr slot
  | .snapshot, t => t.snapshot.2
  | .revertToSnapshot id, t => (t.revertToSnapshot id).1

def runJournalOps : List JournalOp → Transition → Transition
  | [], t => t
  | op :: ops, t => runJournalOps ops (op.exec t)

/-- The journal entry an addition appends. -/
def JournalOp.entry? : JournalOp → Option JournalEntry
  | .addAddressToAccessList addr => some (.accessListAddAccountChange addr)
  | .addSlotToAccessList addr slot => some (.accessListAddSlotChange addr slot)
  | _ => none

/-- Every addition of the run changes the list when it is made. -/
def AllFresh : List JournalOp → Transition → Prop
  | [], _ => True
  | op :: ops, t => (∀ e ∈ op.entry?, e.fresh t.accessList = true) ∧ AllFresh ops (op.exec t)

/-- The revision stack as `Snapshot` builds it: ids increasing and below the number of saved
trees, journal indices nondecreasing and within the journal. -/
structure Transition.RevisionsWellFormed (t : Transition) : Prop where
  sorted : t.journalRevisions.Pairwise fun r r' => r.id < r'.id ∧ r.index ≤ r'.index
  id_lt : ∀ r ∈ t.journalRevisions, r.id < t.state.snapshots.length
  index_le : ∀ r ∈ t.journalRevisions, r.index ≤ t.journal.length

/-- The revision `r`, pushed over the access list `al` and the journal `j` on top of the stack
`pre`: its id stays below the saved trees and no other revision takes it, and while `r` is on
the stack, the stack starts with `pre` and `r`, the journal with `j` up to `r`'s index, and
the rest of the journal undoes back to `al`. -/
structure Transition.Marks (t : Transition) (al : AccessList) (j : List JournalEntry)
    (pre : List JournalRevision) (r : JournalRevision) : Prop where
  id_lt : r.id < t.state.snapshots.length
  unique : ∀ x ∈ t.journalRevisions, x.id = r.id → x = r
  onStack : r ∈ t.journalRevisions → (∃ post, t.journalRevisions = pre ++ r :: post) ∧
    t.journal.take r.index = j ∧ Undoes JournalEntry.revert al (t.journal.drop r.index) t.accessList

namespace Txn

variable {st st' : Txn}

@[simp] theorem snapshots_snapshot : st.snapshot.2.snapshots = st.snapshots ++ [st.txn] := rfl

theorem snapshots_revertToSnapshot {id : ℕ} (h : st.revertToSnapshot id = .ok st') :
    st'.snapshots = st.snapshots := by
  unfold revertToSnapshot at h
  split at h <;> cases h
  rfl

theorem revertToSnapshot_of_lt {id : ℕ} (h : id < st.snapshots.length) :
    ∃ st', st.revertToSnapshot id = .ok st' ∧ st'.snapshots = st.snapshots :=
  ⟨{ st with txn := st.snapshots[id] }, by simp [revertToSnapshot, h], rfl⟩

end Txn

namespace Transition

variable {t : Transition}

/-! ## The calls -/

theorem appendEntry_eq {op : JournalOp} {e : JournalEntry} (he : op.entry? = some e) :
    op.exec t = { t with journal := t.journal ++ [e], accessList := e.add t.accessList } := by
  cases op <;> simp [JournalOp.entry?] at he <;> subst he <;> rfl

@[simp] theorem journalRevisions_snapshot :
    t.snapshot.2.journalRevisions = t.journalRevisions ++ [⟨t.state.snapshots.length,
      t.journal.length⟩] := rfl

@[simp] theorem journal_snapshot : t.snapshot.2.journal = t.journal := rfl

@[simp] theorem accessList_snapshot : t.snapshot.2.accessList = t.accessList := rfl

theorem snapshot_fst : t.snapshot.1 = t.state.snapshots.length := rfl

theorem findIdx?_revision {pre post : List JournalRevision} {r : JournalRevision}
    (hpre : ∀ x ∈ pre, x.id < r.id) :
    (pre ++ r :: post).findIdx? (fun x => decide (r.id ≤ x.id)) = some pre.length := by
  induction pre with
  | nil => simp [List.findIdx?_cons]
  | cons x pre ih =>
    have hx : ¬ r.id ≤ x.id := Nat.not_le.mpr (hpre x List.mem_cons_self)
    rw [List.cons_append, List.findIdx?_cons, ih fun y hy => hpre y (List.mem_cons_of_mem _ hy)]
    simp [hx]

theorem revertToSnapshot_of_revision {pre post : List JournalRevision} {r : JournalRevision}
    (hrevs : t.journalRevisions = pre ++ r :: post) (hpre : ∀ x ∈ pre, x.id < r.id)
    (hlt : r.id < t.state.snapshots.length) :
    ∃ st : Txn, st.snapshots = t.state.snapshots ∧
      t.revertToSnapshot r.id =
        ({ t with state := st, journalRevisions := pre, journal := t.journal.take r.index,
                  accessList := undoAll JournalEntry.revert (t.journal.drop r.index) t.accessList },
          none) := by
  obtain ⟨st, hst, hsnap⟩ := Txn.revertToSnapshot_of_lt hlt
  refine ⟨st, hsnap, ?_⟩
  have hidx : (t.journalRevisions.findIdx? (fun x => decide (r.id ≤ x.id))).getD
      t.journalRevisions.length = pre.length := by
    rw [hrevs, findIdx?_revision hpre]
    rfl
  simp only [revertToSnapshot, hst, hidx]
  rw [hrevs]
  simp [Journal.revert]

theorem revertToSnapshot_cases (id : ℕ) :
    (∃ (st : Txn) (idx : ℕ) (r : JournalRevision), st.snapshots = t.state.snapshots ∧
      t.journalRevisions[idx]? = some r ∧
      (t.revertToSnapshot id).1 =
        { t with state := st, journalRevisions := t.journalRevisions.take idx,
                 journal := t.journal.take r.index,
                 accessList := undoAll JournalEntry.revert (t.journal.drop r.index) t.accessList }) ∨
    (∃ st : Txn, st.snapshots = t.state.snapshots ∧
      (t.revertToSnapshot id).1 = { t with state := st }) := by
  unfold revertToSnapshot
  cases hst : t.state.revertToSnapshot id with
  | error e => exact .inr ⟨t.state, rfl, rfl⟩
  | ok st =>
    have hsnap := Txn.snapshots_revertToSnapshot hst
    dsimp only
    split
    · next r hr =>
      split_ifs
      · exact .inl ⟨st, _, r, hsnap, hr, rfl⟩
      · exact .inr ⟨st, hsnap, rfl⟩
    · exact .inr ⟨st, hsnap, rfl⟩

/-! ## One call keeps the invariants -/

theorem RevisionsWellFormed.appendEntry {op : JournalOp} {e : JournalEntry}
    (he : op.entry? = some e) (h : t.RevisionsWellFormed) : (op.exec t).RevisionsWellFormed := by
  rw [appendEntry_eq he]
  exact ⟨h.sorted, h.id_lt, fun r hr => by simpa using Nat.le_succ_of_le (h.index_le r hr)⟩

theorem RevisionsWellFormed.snapshot (h : t.RevisionsWellFormed) :
    t.snapshot.2.RevisionsWellFormed := by
  refine ⟨?_, ?_, ?_⟩
  · -- the new revision has the largest id and index so far
    rw [journalRevisions_snapshot, List.pairwise_append]
    refine ⟨h.sorted, List.pairwise_singleton _ _, ?_⟩
    intro x hx y hy
    simp only [List.mem_singleton] at hy
    subst hy
    exact ⟨h.id_lt x hx, h.index_le x hx⟩
  · intro x hx
    simp only [journalRevisions_snapshot, List.mem_append, List.mem_singleton] at hx
    rcases hx with hx | rfl
    · simpa using Nat.lt_succ_of_lt (h.id_lt x hx)
    · simp
  · intro x hx
    simp only [journalRevisions_snapshot, List.mem_append, List.mem_singleton] at hx
    rcases hx with hx | rfl
    · exact h.index_le x hx
    · simp

theorem RevisionsWellFormed.lt_of_mem_take (h : t.RevisionsWellFormed) {idx : ℕ}
    {x r : JournalRevision} (hx : x ∈ t.journalRevisions.take idx)
    (hr : t.journalRevisions[idx]? = some r) : x.id < r.id ∧ x.index ≤ r.index := by
  have hmem : r ∈ t.journalRevisions.drop idx := by
    obtain ⟨hlt, rfl⟩ := List.getElem?_eq_some_iff.1 hr
    rw [List.drop_eq_getElem_cons hlt]
    exact List.mem_cons_self
  exact h.sorted.rel_of_mem_take_of_mem_drop hx hmem

theorem RevisionsWellFormed.lt_of_stack (h : t.RevisionsWellFormed)
    {pre post : List JournalRevision} {r : JournalRevision}
    (hrevs : t.journalRevisions = pre ++ r :: post) : ∀ x ∈ pre, x.id < r.id := by
  have hs := h.sorted
  rw [hrevs, List.pairwise_append] at hs
  exact fun x hx => (hs.2.2 x hx r List.mem_cons_self).1

theorem RevisionsWellFormed.revertToSnapshot (h : t.RevisionsWellFormed) (id : ℕ) :
    (t.revertToSnapshot id).1.RevisionsWellFormed := by
  rcases revertToSnapshot_cases (t := t) id with ⟨st, idx, r, hsnap, hr, ht'⟩ | ⟨st, hsnap, ht'⟩
  · rw [ht']
    have hle := h.index_le r (List.mem_of_getElem? hr)
    refine ⟨h.sorted.sublist (List.take_sublist _ _), fun x hx => ?_, fun x hx => ?_⟩
    · simpa [hsnap] using h.id_lt x (List.mem_of_mem_take hx)
    · -- below the cut every index is at most the cut's, and the journal keeps that much
      have hx := (h.lt_of_mem_take hx hr).2
      simp only [List.length_take]
      omega
  · rw [ht']
    exact ⟨h.sorted, fun x hx => by simpa [hsnap] using h.id_lt x hx, h.index_le⟩

theorem Marks.appendEntry {al : AccessList} {j : List JournalEntry} {pre : List JournalRevision}
    {r : JournalRevision} {op : JournalOp} {e : JournalEntry} (he : op.entry? = some e)
    (hfresh : e.fresh t.accessList = true) (hwf : t.RevisionsWellFormed) (h : t.Marks al j pre r) :
    (op.exec t).Marks al j pre r := by
  rw [appendEntry_eq he]
  refine ⟨h.id_lt, h.unique, fun hr => ?_⟩
  obtain ⟨hstack, hj, hundo⟩ := h.onStack hr
  have hle := hwf.index_le r hr
  refine ⟨hstack, ?_, ?_⟩
  · simpa [List.take_append_of_le_length hle] using hj
  · -- the new entry undoes the fresh addition
    simp only [List.drop_append_of_le_length hle]
    exact .snoc hundo (JournalEntry.revert_add_of_fresh hfresh)

theorem Marks.snapshot {al : AccessList} {j : List JournalEntry} {pre : List JournalRevision}
    {r : JournalRevision} (h : t.Marks al j pre r) : t.snapshot.2.Marks al j pre r := by
  have hid := h.id_lt
  refine ⟨by simp; omega, fun x hx hxid => ?_, fun hr => ?_⟩
  · simp only [journalRevisions_snapshot, List.mem_append, List.mem_singleton] at hx
    rcases hx with hx | rfl
    · exact h.unique x hx hxid
    · simp only at hxid
      omega
  · simp only [journalRevisions_snapshot, List.mem_append, List.mem_singleton] at hr
    rcases hr with hr | hr
    · obtain ⟨⟨post, hpost⟩, hj, hundo⟩ := h.onStack hr
      exact ⟨⟨post ++ [⟨t.state.snapshots.length, t.journal.length⟩], by simp [hpost]⟩, hj,
        hundo⟩
    · have := congrArg JournalRevision.id hr
      simp only at this
      omega

theorem Marks.revertToSnapshot {al : AccessList} {j : List JournalEntry}
    {pre : List JournalRevision} {r : JournalRevision} (hwf : t.RevisionsWellFormed)
    (h : t.Marks al j pre r) (id : ℕ) : (t.revertToSnapshot id).1.Marks al j pre r := by
  rcases revertToSnapshot_cases (t := t) id with ⟨st, idx, r', hsnap, hr', ht'⟩ | ⟨st, hsnap, ht'⟩
  · rw [ht']
    refine ⟨by simpa [hsnap] using h.id_lt,
      fun x hx hxid => h.unique x (List.mem_of_mem_take hx) hxid, fun hr => ?_⟩
    obtain ⟨⟨post, hpost⟩, hj, hundo⟩ := h.onStack (List.mem_of_mem_take hr)
    have hle := (hwf.lt_of_mem_take hr hr').2
    -- `r` survives the cut, so the cut lies above it
    have hidx : pre.length < idx := by
      by_contra hcut
      have hin : r ∈ pre := by
        have hr₀ : r ∈ (pre ++ r :: post).take idx := hpost ▸ hr
        rw [List.take_append_of_le_length (by omega)] at hr₀
        exact List.mem_of_mem_take hr₀
      exact Nat.lt_irrefl _ (hwf.lt_of_stack hpost r hin)
    refine ⟨⟨post.take (idx - pre.length - 1), ?_⟩, ?_, ?_⟩
    · obtain ⟨k, hk⟩ : ∃ k, idx - pre.length = k + 1 := ⟨idx - pre.length - 1, by omega⟩
      simp only [hpost, List.take_append, List.take_of_length_le (Nat.le_of_lt hidx), hk,
        List.take_succ_cons, Nat.add_sub_cancel]
    · simp [List.take_take, Nat.min_eq_left hle, hj]
    · -- the replay from the cut is the tail of the log from `r`
      have hdrop : t.journal.drop r'.index =
          (t.journal.drop r.index).drop (r'.index - r.index) := by
        rw [List.drop_drop]
        congr 1
        omega
      simp only [List.drop_take, hdrop]
      exact hundo.revert _
  · rw [ht']
    exact ⟨by simpa [hsnap] using h.id_lt, h.unique, h.onStack⟩

theorem exec_invariant {al : AccessList} {j : List JournalEntry} {pre : List JournalRevision}
    {r : JournalRevision} (op : JournalOp) (hop : ∀ e ∈ op.entry?, e.fresh t.accessList = true)
    (hwf : t.RevisionsWellFormed) (h : t.Marks al j pre r) :
    (op.exec t).RevisionsWellFormed ∧ (op.exec t).Marks al j pre r := by
  cases op with
  | addAddressToAccessList a =>
    exact ⟨hwf.appendEntry rfl, h.appendEntry rfl (hop _ rfl) hwf⟩
  | addSlotToAccessList a k =>
    exact ⟨hwf.appendEntry rfl, h.appendEntry rfl (hop _ rfl) hwf⟩
  | snapshot => exact ⟨hwf.snapshot, h.snapshot⟩
  | revertToSnapshot id => exact ⟨hwf.revertToSnapshot id, h.revertToSnapshot hwf id⟩

theorem runJournalOps_invariant {al : AccessList} {j : List JournalEntry}
    {pre : List JournalRevision} {r : JournalRevision} (ops : List JournalOp)
    (hwf : t.RevisionsWellFormed) (h : t.Marks al j pre r) (hfresh : AllFresh ops t) :
    (runJournalOps ops t).RevisionsWellFormed ∧ (runJournalOps ops t).Marks al j pre r := by
  induction ops generalizing t with
  | nil => exact ⟨hwf, h⟩
  | cons op ops ih =>
    obtain ⟨hop, hrest⟩ := hfresh
    obtain ⟨hwf₁, h₁⟩ := exec_invariant op hop hwf h
    exact ih hwf₁ h₁ hrest

theorem Marks.of_snapshot (hwf : t.RevisionsWellFormed) :
    t.snapshot.2.Marks t.accessList t.journal t.journalRevisions
      ⟨t.state.snapshots.length, t.journal.length⟩ := by
  refine ⟨by simp, fun x hx hxid => ?_, fun _ => ⟨⟨[], by simp⟩, by simp, ?_⟩⟩
  · simp only [journalRevisions_snapshot, List.mem_append, List.mem_singleton] at hx
    rcases hx with hx | rfl
    · exact absurd hxid (Nat.ne_of_lt (hwf.id_lt x hx))
    · rfl
  · simpa using Undoes.nil t.accessList

end Transition

theorem revertToSnapshot_deletes_warm_address (t : Transition) (hwf : t.RevisionsWellFormed)
    (a : Address) (ha : t.accessList.containsAddress a = true) :
    let t₁ := t.snapshot.2.addAddressToAccessList a
    let t₂ := t₁.revertToSnapshot t.snapshot.1
    t.snapshot.2.accessList.containsAddress a = true ∧
    t.snapshot.1 ∈ t₁.journalRevisions.map (·.id) ∧
    t₂.2 = none ∧ t₂.1.accessList.containsAddress a = false := by
  intro t₁ t₂
  have hrevs : t₁.journalRevisions =
      t.journalRevisions ++ [⟨t.state.snapshots.length, t.journal.length⟩] := rfl
  obtain ⟨st, -, hrev⟩ := Transition.revertToSnapshot_of_revision (t := t₁) hrevs
    hwf.id_lt (by simp [t₁])
  -- the replay from the snapshot is the one entry of the redundant addition
  have htail : t₁.journal.drop t.journal.length = [.accessListAddAccountChange a] := by
    simp [t₁, Transition.addAddressToAccessList]
  refine ⟨ha, List.mem_map.2 ⟨⟨t.state.snapshots.length, t.journal.length⟩, by simp [hrevs], rfl⟩,
    ?_, ?_⟩
  · simp only [t₂, Transition.snapshot_fst]
    rw [hrev]
  · simp only [t₂, Transition.snapshot_fst]
    rw [hrev]
    simp [htail, JournalEntry.revert]

/-- Address one, warm from the start of the transaction, made warm again after a snapshot. -/
theorem revertToSnapshot_deletes_warm_address_one :
    let snapshot : ReadSnapshot := ⟨fun _ => none, fun _ => [], fun _ _ _ => 0⟩
    let t : Transition := ⟨⟨⟨true, true, true, true, true⟩, true, true, true, true⟩,
      ⟨1, 0, 0, 0, false, 0, 0⟩, newTxn Lru.ops snapshot, 0, none, none, none, none, none, none, [], [],
      AccessList.newAccessList.addAddress [1], false, [], 0⟩
    let t₁ := t.snapshot.2.addAddressToAccessList 1
    let t₂ := t₁.revertToSnapshot t.snapshot.1
    t.snapshot.2.accessList.containsAddress 1 = true ∧
    t.snapshot.1 ∈ t₁.journalRevisions.map (·.id) ∧
    t₂.2 = none ∧ t₂.1.accessList.containsAddress 1 = false := by
  intro snapshot t t₁ t₂
  exact revertToSnapshot_deletes_warm_address t ⟨List.Pairwise.nil, by simp [t], by simp [t]⟩ 1
    (@AccessList.containsAddress_addAddress_self AccessList.newAccessList 1)

end Blade
