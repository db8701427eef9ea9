import Blade.Types.Transaction

/-!
Exit events and their proofs (`consensus/polybft/checkpoint_manager.go`,
`consensus/polybft/state_store_exit.go`). `ProcessLog` stores the exit events of each finalized
block, under the epoch and block of its checkpoint (an epoch-ending block's under the next
epoch and block). The FSM of a block records as its checkpoint's event root the tree of the
events of its epoch stored before it. `GenerateExitProof` rebuilds the tree from the events of
the exit's epoch up to the checkpoint block the root chain reports, that block's own events
included: when the exit was emitted in that block, the proof's tree holds it and the recorded
root's tree does not.

The ABI encoding of an event and the Merkle tree's hash are parameters; the tree is given by its
leaves.
-/

namespace Blade

structure L2StateSyncedEvent where
  id : ℕ
  sender : Address
  receiver : Address
  data : List UInt8
  deriving DecidableEq, Repr

structure ExitEvent where
  l2StateSyncedEvent : L2StateSyncedEvent
  epochNumber : ℕ
  blockNumber : ℕ
  deriving DecidableEq, Repr

/-- The header fields `parseExitEvent` reads: the block number, the epoch of the block's
checkpoint, and whether the extra carries validators, which only epoch-ending blocks do. -/
structure ExitHeader where
  number : ℕ
  epochNumber : ℕ
  hasValidators : Bool

def parseExitEvent (h : ExitHeader) (event : L2StateSyncedEvent) : ExitEvent :=
  -- the exit events of an epoch-ending block go to the tree of the next epoch
  if h.hasValidators then ⟨event, h.epochNumber + 1, h.number + 1⟩
  else ⟨event, h.epochNumber, h.number⟩

namespace ExitEvent

/-- `generateExitEventKey`: the epoch, the id and the block number, eight big-endian bytes each,
so that the bucket's byte order is the order of the triples. -/
def key (e : ExitEvent) : ℕ × ℕ × ℕ := (e.epochNumber, e.l2StateSyncedEvent.id, e.blockNumber)

/-- The order of the cursor within one epoch: by id, then by block number. -/
def cursorLE (a b : ExitEvent) : Bool :=
  a.l2StateSyncedEvent.id < b.l2StateSyncedEvent.id ||
    a.l2StateSyncedEvent.id == b.l2StateSyncedEvent.id && a.blockNumber ≤ b.blockNumber

end ExitEvent

inductive ExitProofError
  /-- "could not find any exit event that has an id: %v. Its epoch was not found in lookup
  table" -/
  | epochNotFound (exitID : ℕ)
  /-- `exitEventNotFoundError` -/
  | exitEventNotFound (exitID epoch : ℕ)
  /-- "checkpoint block not found for exit ID %d" -/
  | checkpointBlockNotFound (exitID : ℕ)
  /-- the tree's `LeafIndex` on a leaf it does not hold -/
  | leafNotFound
  deriving DecidableEq, Repr

/-- `ExitStore`: the exit events bucket, one event per key, and the bucket from exit ids to
epochs. -/
structure ExitStore where
  events : List ExitEvent
  lookup : ℕ → Option ℕ
  keys_nodup : (events.map ExitEvent.key).Nodup

namespace ExitStore

def empty : ExitStore := ⟨[], fun _ => none, List.nodup_nil⟩

variable (s : ExitStore)

/-- `insertExitEvent`: the event replaces the one under its key, and its id now maps to its
epoch. -/
def insertExitEvent (exitEvent : ExitEvent) : ExitStore where
  events := exitEvent :: s.events.filter (·.key != exitEvent.key)
  lookup := Function.update s.lookup exitEvent.l2StateSyncedEvent.id (some exitEvent.epochNumber)
  keys_nodup := by
    rw [List.map_cons, List.nodup_cons]
    refine ⟨fun h => ?_, s.keys_nodup.sublist (List.filter_sublist.map _)⟩
    obtain ⟨e, he, hkey⟩ := List.mem_map.1 h
    simp only [List.mem_filter, bne_iff_ne, ne_eq] at he
    exact he.2 hkey

/-- `getExitEvents`: the events under the epoch's prefix that pass the filter, sorted by id. -/
def getExitEvents (epoch : ℕ) (filter : ExitEvent → Bool) : List ExitEvent :=
  (s.events.filter fun e => e.epochNumber == epoch && filter e).mergeSort ExitEvent.cursorLE

def getExitEventsByEpoch (epoch : ℕ) : List ExitEvent :=
  s.getExitEvents epoch fun e => e.epochNumber == epoch

def getExitEventsForProof (epoch checkpointBlock : ℕ) : List ExitEvent :=
  s.getExitEvents epoch fun e => e.epochNumber == epoch && e.blockNumber ≤ checkpointBlock

/-- `getExitEvent`: the epoch from the lookup bucket, then the first key under the prefix of
that epoch and the id. -/
def getExitEvent (exitEventID : ℕ) : Except ExitProofError ExitEvent :=
  match s.lookup exitEventID with
  | none => .error (.epochNotFound exitEventID)
  | some epoch =>
    let under := (s.events.filter fun e =>
      e.epochNumber == epoch && e.l2StateSyncedEvent.id == exitEventID).mergeSort
        ExitEvent.cursorLE
    match under.head? with
    | some exitEvent => .ok exitEvent
    | none => .error (.exitEventNotFound exitEventID epoch)

end ExitStore

section CheckpointManager

variable (encode : L2StateSyncedEvent → List UInt8) (merkleRoot : List (List UInt8) → Hash)

def createExitTree (exitEvents : List ExitEvent) : List (List UInt8) :=
  exitEvents.map fun e => encode e.l2StateSyncedEvent

def buildEventRoot (s : ExitStore) (epoch : ℕ) : Hash :=
  let exitEvents := s.getExitEventsByEpoch epoch
  if exitEvents = [] then 0 else merkleRoot (createExitTree encode exitEvents)

/-- `ProcessLog` for each exit log of a block. -/
def processLogs (s : ExitStore) (header : ExitHeader) (logs : List L2StateSyncedEvent) :
    ExitStore :=
  logs.foldl (fun s event => s.insertExitEvent (parseExitEvent header event)) s

/-- A finalized block: the FSM that built it recorded the event root of its epoch over the
events stored until then, and its exit logs are processed after it. The root its checkpoint
records, and the store after it. -/
def finalizeBlock (s : ExitStore) (header : ExitHeader) (logs : List L2StateSyncedEvent) :
    Hash × ExitStore :=
  (buildEventRoot encode merkleRoot s header.epochNumber, processLogs s header logs)

-- the root chain's `getCheckpointBlock`: the checkpoint block of a block, if found
variable (getCheckpointBlock : ℕ → Option ℕ)

/-- `GenerateExitProof`, up to the proof path the tree computes: the tree's leaves, the exit's
leaf index and the checkpoint block. -/
def generateExitProof (s : ExitStore) (exitID : ℕ) :
    Except ExitProofError (List (List UInt8) × ℕ × ℕ) :=
  match s.getExitEvent exitID with
  | .error e => .error e
  | .ok exitEvent =>
    match getCheckpointBlock exitEvent.blockNumber with
    | none => .error (.checkpointBlockNotFound exitID)
    | some checkpointBlock =>
      let exitEventEncoded := encode exitEvent.l2StateSyncedEvent
      let tree := createExitTree encode
        (s.getExitEventsForProof exitEvent.epochNumber checkpointBlock)
      match tree.idxOf? exitEventEncoded with
      | none => .error .leafNotFound
      | some leafIndex => .ok (tree, leafIndex, checkpointBlock)

end CheckpointManager

namespace ExitStore

variable {s : ExitStore} {p q : ExitEvent}

theorem mem_insertExitEvent {x : ExitEvent} :
    x ∈ (s.insertExitEvent q).events ↔ x = q ∨ (x ∈ s.events ∧ x.key ≠ q.key) := by
  simp [insertExitEvent]

theorem lookup_insertExitEvent (id : ℕ) :
    (s.insertExitEvent q).lookup id =
      if id = q.l2StateSyncedEvent.id then some q.epochNumber else s.lookup id := by
  simp only [insertExitEvent, Function.update_apply]

/-- No event but `p` is stored under `p`'s id. -/
def NoOther (s : ExitStore) (p : ExitEvent) : Prop :=
  ∀ e ∈ s.events, e.l2StateSyncedEvent.id = p.l2StateSyncedEvent.id → e = p

/-- `p` is the event stored under its id, and the lookup bucket points to its epoch. -/
structure Stored (s : ExitStore) (p : ExitEvent) : Prop where
  mem : p ∈ s.events
  lookup : s.lookup p.l2StateSyncedEvent.id = some p.epochNumber
  noOther : s.NoOther p

theorem NoOther.insertExitEvent (h : s.NoOther p)
    (hq : q.l2StateSyncedEvent.id = p.l2StateSyncedEvent.id → q = p) :
    (s.insertExitEvent q).NoOther p := by
  intro e he hid
  rcases mem_insertExitEvent.1 he with rfl | ⟨he, -⟩
  · exact hq hid
  · exact h e he hid

theorem Stored.of_insertExitEvent_self (h : s.NoOther p) : (s.insertExitEvent p).Stored p :=
  ⟨mem_insertExitEvent.2 (.inl rfl), by simp [lookup_insertExitEvent],
    h.insertExitEvent fun _ => rfl⟩

theorem Stored.insertExitEvent (h : s.Stored p)
    (hq : q.l2StateSyncedEvent.id = p.l2StateSyncedEvent.id → q = p) :
    (s.insertExitEvent q).Stored p := by
  by_cases hqp : q = p
  · subst hqp
    exact Stored.of_insertExitEvent_self h.noOther
  -- another id: another key, and another entry of the lookup bucket
  have hid : p.l2StateSyncedEvent.id ≠ q.l2StateSyncedEvent.id := fun e => hqp (hq e.symm)
  refine ⟨mem_insertExitEvent.2 (.inr ⟨h.mem, fun hk => hid ?_⟩), ?_,
    h.noOther.insertExitEvent hq⟩
  · exact congrArg (fun k => k.2.1) hk
  · rw [lookup_insertExitEvent, if_neg hid]
    exact h.lookup

theorem Stored.getExitEvent (h : s.Stored p) :
    s.getExitEvent p.l2StateSyncedEvent.id = .ok p := by
  let under := (s.events.filter fun e => e.epochNumber == p.epochNumber &&
    e.l2StateSyncedEvent.id == p.l2StateSyncedEvent.id).mergeSort ExitEvent.cursorLE
  have hall : ∀ e ∈ under, e = p := by
    intro e he
    simp only [under, List.mem_mergeSort, List.mem_filter, Bool.and_eq_true, beq_iff_eq] at he
    exact h.noOther e he.1 he.2.2
  have hmem : p ∈ under := by simp [under, h.mem]
  have hhead : under.head? = some p := by
    cases hu : under with
    | nil => simp [hu] at hmem
    | cons x xs => simp [hall x (hu ▸ List.mem_cons_self)]
  simp only [ExitStore.getExitEvent, h.lookup]
  exact hhead ▸ rfl

theorem getExitEventsForProof_eq {e C : ℕ}
    (h : ∀ x ∈ s.events, x.epochNumber = e → x.blockNumber ≤ C) :
    s.getExitEventsForProof e C = s.getExitEventsByEpoch e := by
  unfold getExitEventsForProof getExitEventsByEpoch getExitEvents
  congr 1
  apply List.filter_congr
  intro x hx
  by_cases hxe : x.epochNumber = e
  · simp [hxe, h x hx hxe]
  · simp [hxe]

end ExitStore

section CheckpointManager

variable {encode : L2StateSyncedEvent → List UInt8} {s : ExitStore} {header : ExitHeader}
  {X : L2StateSyncedEvent}

theorem processLogs_keeps {logs : List L2StateSyncedEvent}
    (hlogs : ∀ y ∈ logs, y.id = X.id → y = X) :
    (s.NoOther (parseExitEvent header X) →
      (processLogs s header logs).NoOther (parseExitEvent header X)) ∧
    (s.Stored (parseExitEvent header X) →
      (processLogs s header logs).Stored (parseExitEvent header X)) := by
  -- each parsed log is `X`'s event or carries another id
  have hparse : ∀ y ∈ logs, (parseExitEvent header y).l2StateSyncedEvent.id =
      (parseExitEvent header X).l2StateSyncedEvent.id →
      parseExitEvent header y = parseExitEvent header X := by
    intro y hy hid
    have hid' : y.id = X.id := by
      unfold parseExitEvent at hid
      split_ifs at hid <;> exact hid
    rw [hlogs y hy hid']
  induction logs generalizing s with
  | nil => exact ⟨id, id⟩
  | cons y ys ih =>
    have hy := hparse y List.mem_cons_self
    have ih' := ih (s := s.insertExitEvent (parseExitEvent header y))
      (fun z hz => hlogs z (List.mem_cons_of_mem _ hz))
      (fun z hz => hparse z (List.mem_cons_of_mem _ hz))
    exact ⟨fun h => ih'.1 (h.insertExitEvent hy), fun h => ih'.2 (h.insertExitEvent hy)⟩

theorem processLogs_stored {logs : List L2StateSyncedEvent} (hX : X ∈ logs)
    (hlogs : ∀ y ∈ logs, y.id = X.id → y = X) (hfresh : s.NoOther (parseExitEvent header X)) :
    (processLogs s header logs).Stored (parseExitEvent header X) := by
  obtain ⟨pre, post, rfl⟩ := List.append_of_mem hX
  have hpre := (@processLogs_keeps s header X pre
    fun y hy => hlogs y (List.mem_append_left _ hy)).1 hfresh
  have hpost := @processLogs_keeps ((processLogs s header pre).insertExitEvent
    (parseExitEvent header X)) header X post
    fun y hy => hlogs y (List.mem_append_right _ (List.mem_cons_of_mem _ hy))
  simp only [processLogs, List.foldl_append, List.foldl_cons] at hpre hpost ⊢
  exact hpost.2 (ExitStore.Stored.of_insertExitEvent_self hpre)

end CheckpointManager

theorem generateExitProof_outside_checkpoint_root (encode : L2StateSyncedEvent → List UInt8)
    (merkleRoot : List (List UInt8) → Hash) (getCheckpointBlock : ℕ → Option ℕ)
    (s : ExitStore) (header : ExitHeader) (logs : List L2StateSyncedEvent)
    (X : L2StateSyncedEvent) (hX : X ∈ logs) (hlogs : ∀ y ∈ logs, y.id = X.id → y = X)
    (hfresh : ∀ e ∈ s.events, e.l2StateSyncedEvent.id ≠ X.id)
    (hend : header.hasValidators = false)
    (hcheckpoint : getCheckpointBlock header.number = some header.number) :
    let block := finalizeBlock encode merkleRoot s header logs
    block.1 = buildEventRoot encode merkleRoot s header.epochNumber ∧
    (∀ e ∈ s.getExitEventsByEpoch header.epochNumber, e.l2StateSyncedEvent ≠ X) ∧
    ∃ tree i, generateExitProof encode getCheckpointBlock block.2 X.id =
        .ok (tree, i, header.number) ∧
      tree = createExitTree encode (block.2.getExitEventsForProof header.epochNumber header.number) ∧
      tree[i]? = some (encode X) := by
  intro block
  -- the exit is stored under the block's own epoch and number
  have hp : parseExitEvent header X = ⟨X, header.epochNumber, header.number⟩ := by
    simp [parseExitEvent, hend]
  have hstored : block.2.Stored ⟨X, header.epochNumber, header.number⟩ := by
    rw [← hp]
    refine processLogs_stored hX hlogs fun e he hid => absurd ?_ (hfresh e he)
    rw [hid, hp]
  refine ⟨rfl, fun e he hX' => hfresh e ?_ (by rw [hX']), ?_⟩
  · simp only [ExitStore.getExitEventsByEpoch, ExitStore.getExitEvents, List.mem_mergeSort,
      List.mem_filter] at he
    exact he.1
  -- the proof's tree is built from the events up to the block, the exit's included
  let tree := createExitTree encode (block.2.getExitEventsForProof header.epochNumber header.number)
  have hmem : encode X ∈ tree := by
    refine List.mem_map.2 ⟨⟨X, header.epochNumber, header.number⟩, ?_, rfl⟩
    simp [ExitStore.getExitEventsForProof, ExitStore.getExitEvents, hstored.mem]
  obtain ⟨i, hi⟩ : ∃ i, tree.idxOf? (encode X) = some i := by
    cases h : tree.idxOf? (encode X) with
    | none => exact absurd (List.idxOf?_eq_none_iff.1 h) (not_not.2 hmem)
    | some i => exact ⟨i, rfl⟩
  refine ⟨tree, i, ?_, rfl, ?_⟩
  · have hget := hstored.getExitEvent
    simp only [generateExitProof, hget, hcheckpoint]
    exact hi ▸ rfl
  · obtain ⟨hlt, heq, -⟩ := List.idxOf?_eq_some_iff.1 hi
    simp [hlt, heq]

/-- Exit seven, emitted in block ten of epoch one, which the root chain reports as its own
checkpoint block, over an empty store. -/
theorem generateExitProof_outside_checkpoint_root_block_ten :
    let X : L2StateSyncedEvent := ⟨7, 0, 0, []⟩
    let header : ExitHeader := ⟨10, 1, false⟩
    let encode : L2StateSyncedEvent → List UInt8 := fun e => [e.id.toUInt8]
    let merkleRoot : List (List UInt8) → Hash := fun _ => 1
    let getCheckpointBlock : ℕ → Option ℕ := some
    let block := finalizeBlock encode merkleRoot ExitStore.empty header [X]
    block.1 = buildEventRoot encode merkleRoot ExitStore.empty header.epochNumber ∧
    (∀ e ∈ ExitStore.empty.getExitEventsByEpoch header.epochNumber, e.l2StateSyncedEvent ≠ X) ∧
    ∃ tree i, generateExitProof encode getCheckpointBlock block.2 X.id =
        .ok (tree, i, header.number) ∧
      tree = createExitTree encode (block.2.getExitEventsForProof header.epochNumber header.number) ∧
      tree[i]? = some (encode X) := by
  intro X header encode merkleRoot getCheckpointBlock
  exact generateExitProof_outside_checkpoint_root encode merkleRoot getCheckpointBlock
    ExitStore.empty header [X] X List.mem_cons_self (by simp) (by simp [ExitStore.empty]) rfl rfl

end Blade
