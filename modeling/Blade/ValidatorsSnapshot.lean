import Blade.ValidatorMetadata

/-!
`consensus/polybft/validators_snapshot.go`: the validator set of an epoch is cached in memory
and in the database; `GetSnapshot` takes the nearest cached epoch at or below the one it needs
and applies the deltas of the following epoch-ending blocks, found by scanning the chain.
Both stores are pruned by `cleanup`.
-/

namespace Blade

structure CheckpointData where
  blockRound : Nat
  epochNumber : Nat
  deriving DecidableEq, Repr

structure Extra where
  validators : Option ValidatorSetDelta
  checkpoint : CheckpointData
  deriving DecidableEq, Repr

structure ValidatorSnapshot where
  epoch : Nat
  epochEndingBlock : Nat
  snapshot : AccountSet
  deriving DecidableEq, Repr

inductive SnapshotError where
  | noBlock
  | unknownBlock (blockNumber : Nat)
  | applyDelta (blockNumber : Nat) (err : ApplyDeltaError)
  | emptySnapshot (blockNumber : Nat)
  deriving DecidableEq, Repr

def validatorSnapshotLimit : Nat := 100

def numberOfSnapshotsToLeaveInMemory : Nat := 12

def numberOfSnapshotsToLeaveInDB : Nat := 20

def decU64 (x : Nat) : Nat := (x + 2 ^ 64 - 1) % 2 ^ 64

abbrev SnapshotMap := List (Nat × ValidatorSnapshot)

namespace SnapshotMap

def get (m : SnapshotMap) (k : Nat) : Option ValidatorSnapshot := (m.find? (·.1 == k)).map (·.2)

def put (m : SnapshotMap) (k : Nat) (v : ValidatorSnapshot) : SnapshotMap :=
  (k, v) :: m.filter (·.1 != k)

def nearest (m : SnapshotMap) : Nat → Option ValidatorSnapshot
  | 0 => m.get 0
  | e + 1 =>
    match m.get (e + 1) with
    | some s => some s
    | none => nearest m e

def keepRecent (m : SnapshotMap) : Nat → Nat → SnapshotMap
  | 0, _ => []
  | i + 1, startEpoch =>
    (match m.get startEpoch with
      | some s => [(startEpoch, s)]
      | none => []) ++ keepRecent m i (decU64 startEpoch)

def keepInDB (db : SnapshotMap) : Nat → Nat → SnapshotMap
  | 0, _ => []
  | i + 1, epoch =>
    match db.get epoch with
    | none => keepInDB db i epoch
    | some v => (epoch, v) :: keepInDB db i (decU64 epoch)

theorem mem_of_get_eq_some {m : SnapshotMap} {k : Nat} {s : ValidatorSnapshot}
    (h : m.get k = some s) : (k, s) ∈ m := by
  obtain ⟨⟨k', s'⟩, hf, rfl⟩ := Option.map_eq_some_iff.mp h
  have hk : k' = k := by simpa using List.find?_some hf
  subst hk
  exact List.mem_of_find?_eq_some hf

theorem mem_put {m : SnapshotMap} {k : Nat} {v : ValidatorSnapshot} {e : Nat × ValidatorSnapshot}
    (h : e ∈ m.put k v) : e = (k, v) ∨ e ∈ m := by
  rcases List.mem_cons.mp h with h | h
  · exact .inl h
  · exact .inr (List.mem_filter.mp h).1

theorem nearest_eq_some {m : SnapshotMap} {s : ValidatorSnapshot} :
    ∀ {e : Nat}, m.nearest e = some s → ∃ j ≤ e, (j, s) ∈ m
  | 0, h => ⟨0, le_refl 0, mem_of_get_eq_some h⟩
  | e + 1, h => by
    unfold nearest at h
    cases hg : m.get (e + 1) with
    | some s' =>
      rw [hg] at h
      cases h
      exact ⟨e + 1, le_refl _, mem_of_get_eq_some hg⟩
    | none =>
      rw [hg] at h
      obtain ⟨j, hj, hm⟩ := nearest_eq_some h
      exact ⟨j, by omega, hm⟩

theorem mem_keepRecent {m : SnapshotMap} {x : Nat × ValidatorSnapshot} :
    ∀ {i e : Nat}, x ∈ m.keepRecent i e → x ∈ m
  | 0, _, h => by simp [keepRecent] at h
  | i + 1, e, h => by
    unfold keepRecent at h
    rcases List.mem_append.mp h with h | h
    · cases hg : m.get e with
      | none => simp [hg] at h
      | some s =>
        simp only [hg, List.mem_singleton] at h
        subst h
        exact mem_of_get_eq_some hg
    · exact mem_keepRecent h

theorem mem_keepInDB {db : SnapshotMap} {x : Nat × ValidatorSnapshot} :
    ∀ {i e : Nat}, x ∈ db.keepInDB i e → x ∈ db
  | 0, _, h => by simp [keepInDB] at h
  | i + 1, e, h => by
    unfold keepInDB at h
    cases hg : db.get e with
    | none =>
      rw [hg] at h
      exact mem_keepInDB h
    | some v =>
      simp only [hg, List.mem_cons] at h
      rcases h with rfl | h
      · exact mem_of_get_eq_some hg
      · exact mem_keepInDB h

end SnapshotMap

structure SnapshotCache where
  snapshots : SnapshotMap
  db : SnapshotMap

def getBlockData (chain : List Extra) (blockNumber : Nat) : Except SnapshotError Extra :=
  match chain[blockNumber]? with
  | some extra => .ok extra
  | none => .error .noBlock

def isEpochEndingBlock (chain : List Extra) (blockNumber : Nat) (extra : Extra) :
    Except SnapshotError Bool :=
  match extra.validators with
  | none => .ok false
  | some delta =>
    if !delta.isEmpty then .ok true
    else do
      let nextBlockExtra ← getBlockData chain (blockNumber + 1)
      pure (extra.checkpoint.epochNumber != nextBlockExtra.checkpoint.epochNumber)

def getLastCachedSnapshot (c : SnapshotCache) (currentEpoch : Nat) :
    Option ValidatorSnapshot × SnapshotCache :=
  match c.snapshots.get currentEpoch with
  | some s => (some s, c)
  | none =>
    let cachedSnapshot := c.snapshots.nearest currentEpoch
    match c.db.nearest currentEpoch with
    | none => (cachedSnapshot, c)
    | some dbSnapshot =>
      if cachedSnapshot.isNone || (cachedSnapshot.map (·.epoch)).getD 0 < dbSnapshot.epoch then
        (some dbSnapshot, { c with snapshots := c.snapshots.put dbSnapshot.epoch dbSnapshot })
      else (cachedSnapshot, c)

def findParent (parents : List (Nat × Extra)) (blockNumber : Nat) : Option Extra :=
  (parents.reverse.find? (·.1 == blockNumber)).map (·.2)

def getHeaderExtra (chain : List Extra) (parents : List (Nat × Extra)) (blockNumber : Nat) :
    Option Extra :=
  match findParent parents blockNumber with
  | some extra => some extra
  | none => chain[blockNumber]?

def computeSnapshot (chain : List Extra) (parents : List (Nat × Extra))
    (existingSnapshot : Option ValidatorSnapshot) (nextEpochEndBlockNumber : Nat) :
    Except SnapshotError ValidatorSnapshot :=
  match getHeaderExtra chain parents nextEpochEndBlockNumber with
  | none => .error (.unknownBlock nextEpochEndBlockNumber)
  | some extra =>
    let snapshot := (existingSnapshot.map (·.snapshot)).getD []
    let snapshotEpoch := (existingSnapshot.map (·.epoch + 1)).getD 0
    match AccountSet.applyDelta snapshot extra.validators with
    | .error e => .error (.applyDelta nextEpochEndBlockNumber e)
    | .ok snapshot =>
      if snapshot.length = 0 then .error (.emptySnapshot nextEpochEndBlockNumber)
      else .ok ⟨snapshotEpoch, nextEpochEndBlockNumber, snapshot⟩

theorem computeSnapshot_eq_ok {chain : List Extra} {parents : List (Nat × Extra)}
    {existingSnapshot : Option ValidatorSnapshot} {n : Nat} {s : ValidatorSnapshot} :
    computeSnapshot chain parents existingSnapshot n = .ok s ↔
      ∃ extra, getHeaderExtra chain parents n = some extra ∧
        AccountSet.applyDelta ((existingSnapshot.map (·.snapshot)).getD []) extra.validators =
          .ok s.snapshot ∧ s.snapshot ≠ [] ∧
        s.epoch = (existingSnapshot.map (·.epoch + 1)).getD 0 ∧ s.epochEndingBlock = n := by
  unfold computeSnapshot
  cases hx : getHeaderExtra chain parents n with
  | none => simp
  | some extra =>
    simp only [Option.some.injEq, exists_eq_left']
    cases hd : AccountSet.applyDelta ((existingSnapshot.map (·.snapshot)).getD []) extra.validators with
    | error e => simp
    | ok snap =>
      simp only [List.length_eq_zero_iff, Except.ok.injEq]
      by_cases hnil : snap = []
      · simp only [hnil, if_true, reduceCtorEq, false_iff, not_and]
        intro h1 h2
        exact absurd h1.symm h2
      · simp only [hnil, if_false, Except.ok.injEq]
        constructor
        · rintro rfl; exact ⟨rfl, hnil, rfl, rfl⟩
        · rintro ⟨rfl, -, he, hb⟩
          cases s; simp_all

theorem computeSnapshot_epoch (chain : List Extra) (parents : List (Nat × Extra))
    (latest s : ValidatorSnapshot) (n : Nat)
    (h : computeSnapshot chain parents (some latest) n = .ok s) : s.epoch = latest.epoch + 1 := by
  obtain ⟨_, _, _, _, he, _⟩ := computeSnapshot_eq_ok.mp h
  simpa using he

def scanEpochEnd (startEpoch : Nat) : Nat → List Extra → Nat
  | blockNumber, [] => blockNumber
  | blockNumber, extra :: rest =>
    if extra.checkpoint.epochNumber = startEpoch then scanEpochEnd startEpoch (blockNumber + 1) rest
    else blockNumber

def getNextEpochEndingBlock (chain : List Extra) (latestEpochEndingBlock : Nat) :
    Except SnapshotError Nat := do
  let extra ← getBlockData chain (latestEpochEndingBlock + 1)
  pure (scanEpochEnd extra.checkpoint.epochNumber (latestEpochEndingBlock + 1)
    (chain.drop (latestEpochEndingBlock + 2)))

def storeSnapshot (c : SnapshotCache) (snapshot : ValidatorSnapshot) : SnapshotCache :=
  { snapshots := c.snapshots.put snapshot.epoch snapshot, db := c.db.put snapshot.epoch snapshot }

def cleanup (c : SnapshotCache) : SnapshotCache :=
  if validatorSnapshotLimit ≤ c.snapshots.length then
    let latestEpoch := (c.snapshots.map (·.1)).foldl max 0
    { snapshots := c.snapshots.keepRecent numberOfSnapshotsToLeaveInMemory latestEpoch
      db := c.db.keepInDB numberOfSnapshotsToLeaveInDB latestEpoch }
  else c

namespace SnapshotCache

/-- Both stores key every snapshot by its own epoch, and every stored snapshot satisfies `P`. -/
def All (P : ValidatorSnapshot → Prop) (c : SnapshotCache) : Prop :=
  ∀ k s, (k, s) ∈ c.snapshots ∨ (k, s) ∈ c.db → s.epoch = k ∧ P s

variable {P : ValidatorSnapshot → Prop} {c : SnapshotCache}

theorem all_storeSnapshot (hc : c.All P) {s : ValidatorSnapshot} (hs : P s) :
    (storeSnapshot c s).All P := by
  intro k v hm
  rcases hm with hm | hm <;> rcases SnapshotMap.mem_put hm with he | hm
  · cases he; exact ⟨rfl, hs⟩
  · exact hc k v (.inl hm)
  · cases he; exact ⟨rfl, hs⟩
  · exact hc k v (.inr hm)

theorem all_cleanup (hc : c.All P) : (cleanup c).All P := by
  unfold cleanup
  split
  · intro k v hm
    rcases hm with hm | hm
    · exact hc k v (.inl (SnapshotMap.mem_keepRecent hm))
    · exact hc k v (.inr (SnapshotMap.mem_keepInDB hm))
  · exact hc

theorem all_getLastCachedSnapshot (hc : c.All P) (e : Nat) :
    (getLastCachedSnapshot c e).2.All P ∧
      ∀ s, (getLastCachedSnapshot c e).1 = some s → s.epoch ≤ e ∧ P s := by
  have hfound : ∀ m : SnapshotMap, (∀ k s, (k, s) ∈ m → s.epoch = k ∧ P s) →
      ∀ s, m.nearest e = some s → s.epoch ≤ e ∧ P s := by
    intro m hm s h
    obtain ⟨j, hj, hmem⟩ := SnapshotMap.nearest_eq_some h
    obtain ⟨rfl, hs⟩ := hm j s hmem
    exact ⟨hj, hs⟩
  have hmem := hfound c.snapshots fun k s h => hc k s (.inl h)
  unfold getLastCachedSnapshot
  cases hg : c.snapshots.get e with
  | some s =>
    refine ⟨hc, fun s' h => ?_⟩
    cases h
    obtain ⟨rfl, hs⟩ := hc e s (.inl (SnapshotMap.mem_of_get_eq_some hg))
    exact ⟨le_refl _, hs⟩
  | none =>
    dsimp only
    cases hd : c.db.nearest e with
    | none => exact ⟨hc, hmem⟩
    | some d =>
      have hdP := hfound c.db (fun k s h => hc k s (.inr h)) d hd
      dsimp only
      split
      · refine ⟨fun k v hm => ?_, fun s h => ?_⟩
        · rcases hm with hm | hm
          · rcases SnapshotMap.mem_put hm with he | hm
            · cases he; exact ⟨rfl, hdP.2⟩
            · exact hc k v (.inl hm)
          · exact hc k v (.inr hm)
        · cases h; exact hdP
      · exact ⟨hc, hmem⟩

end SnapshotCache

def applyDeltas (chain : List Extra) (parents : List (Nat × Extra)) (epochToGetSnapshot : Nat)
    (latest : ValidatorSnapshot) (c : SnapshotCache) :
    Except SnapshotError ValidatorSnapshot × SnapshotCache :=
  if hlt : latest.epoch < epochToGetSnapshot then
    match getNextEpochEndingBlock chain latest.epochEndingBlock with
    | .error e => (.error e, c)
    | .ok nextEpochEndBlockNumber =>
      match hs : computeSnapshot chain parents (some latest) nextEpochEndBlockNumber with
      | .error e => (.error e, c)
      | .ok intermediateSnapshot =>
        have : epochToGetSnapshot - intermediateSnapshot.epoch < epochToGetSnapshot - latest.epoch := by
          rw [computeSnapshot_epoch chain parents latest _ _ hs]; omega
        applyDeltas chain parents epochToGetSnapshot intermediateSnapshot
          (storeSnapshot c intermediateSnapshot)
  else (.ok latest, c)
termination_by epochToGetSnapshot - latest.epoch

section Loop

variable {chain : List Extra} {parents : List (Nat × Extra)} {K : Nat}
  {P : ValidatorSnapshot → Prop}

theorem all_applyDeltas
    (hstep : ∀ latest n s, P latest → latest.epoch < K →
      getNextEpochEndingBlock chain latest.epochEndingBlock = .ok n →
      computeSnapshot chain parents (some latest) n = .ok s → P s) :
    ∀ latest c, P latest → latest.epoch ≤ K → c.All P →
      (applyDeltas chain parents K latest c).2.All P ∧
      ∀ s, (applyDeltas chain parents K latest c).1 = .ok s → s.epoch = K ∧ P s := by
  intro latest c
  induction latest, c using applyDeltas.induct chain parents K with
  | case1 latest c hlt e hnext =>
    intro _ _ hc
    rw [applyDeltas, dif_pos hlt, hnext]
    exact ⟨hc, fun s h => by cases h⟩
  | case2 latest c hlt n hnext e hcs =>
    intro _ _ hc
    rw [applyDeltas, dif_pos hlt, hnext]
    dsimp only
    split
    · exact ⟨hc, fun s h => by cases h⟩
    · rename_i heq
      rw [hcs] at heq
      cases heq
  | case3 latest c hlt n hnext s hcs _ ih =>
    intro hP _ hc
    have hs : P s := hstep latest n s hP hlt hnext hcs
    have hse := computeSnapshot_epoch chain parents latest s n hcs
    rw [applyDeltas, dif_pos hlt, hnext]
    dsimp only
    split
    · rename_i heq
      rw [hcs] at heq
      cases heq
    · rename_i heq
      rw [hcs] at heq
      cases heq
      exact ih hs (by omega) (SnapshotCache.all_storeSnapshot hc hs)
  | case4 latest c hlt =>
    intro hP hle hc
    rw [applyDeltas, dif_neg hlt]
    exact ⟨hc, fun s h => by cases h; exact ⟨by omega, hP⟩⟩

theorem applyDeltas_isOk
    (hstep : ∀ latest n s, P latest → latest.epoch < K →
      getNextEpochEndingBlock chain latest.epochEndingBlock = .ok n →
      computeSnapshot chain parents (some latest) n = .ok s → P s)
    (hok : ∀ latest, P latest → latest.epoch < K → ∃ n s,
      getNextEpochEndingBlock chain latest.epochEndingBlock = .ok n ∧
      computeSnapshot chain parents (some latest) n = .ok s) :
    ∀ latest c, P latest → ∃ s, (applyDeltas chain parents K latest c).1 = .ok s := by
  intro latest c
  induction latest, c using applyDeltas.induct chain parents K with
  | case1 latest c hlt e hnext =>
    intro hP
    obtain ⟨n, s, hn, -⟩ := hok latest hP hlt
    rw [hn] at hnext
    cases hnext
  | case2 latest c hlt n hnext e hcs =>
    intro hP
    obtain ⟨n', s, hn, hs⟩ := hok latest hP hlt
    rw [hn] at hnext
    cases hnext
    rw [hs] at hcs
    cases hcs
  | case3 latest c hlt n hnext s hcs _ ih =>
    intro hP
    rw [applyDeltas, dif_pos hlt, hnext]
    dsimp only
    split
    · rename_i heq
      rw [hcs] at heq
      cases heq
    · rename_i heq
      rw [hcs] at heq
      cases heq
      exact ih (hstep latest n s hP hlt hnext hcs)
  | case4 latest c hlt =>
    intro _
    rw [applyDeltas, dif_neg hlt]
    exact ⟨latest, rfl⟩

end Loop

/-- The epoch whose snapshot `GetSnapshot` fetches for a block: the block's own epoch when the
block ends it, the one before otherwise; a missing next block counts as "not ending". -/
def epochToGetSnapshot (chain : List Extra) (blockNumber : Nat) (extra : Extra) :
    Except SnapshotError Nat :=
  match isEpochEndingBlock chain blockNumber extra with
  | .ok isEnding =>
    .ok (if isEnding then extra.checkpoint.epochNumber else decU64 extra.checkpoint.epochNumber)
  | .error .noBlock => .ok (decU64 extra.checkpoint.epochNumber)
  | .error e => .error e

def getSnapshot (chain : List Extra) (parents : List (Nat × Extra)) (blockNumber : Nat)
    (isPassedTxNil : Bool) (c : SnapshotCache) : Except SnapshotError AccountSet × SnapshotCache :=
  -- without a caller's transaction the database writes are rolled back on error
  let fail (e : SnapshotError) (c' : SnapshotCache) : Except SnapshotError AccountSet × SnapshotCache :=
    (.error e, if isPassedTxNil then { c' with db := c.db } else c')
  match getBlockData chain blockNumber with
  | .error e => fail e c
  | .ok extra =>
    match epochToGetSnapshot chain blockNumber extra with
    | .error e => fail e c
    | .ok epochToGetSnapshot =>
      let run (latest : ValidatorSnapshot) (c : SnapshotCache) :
          Except SnapshotError AccountSet × SnapshotCache :=
        match applyDeltas chain parents epochToGetSnapshot latest c with
        | (.error e, c') => fail e c'
        | (.ok latest, c') => (.ok latest.snapshot, cleanup c')
      match getLastCachedSnapshot c epochToGetSnapshot with
      | (some s, c) => if s.epoch = epochToGetSnapshot then (.ok s.snapshot, c) else run s c
      | (none, c) =>
        -- no cached epoch at or below the requested one: start from the genesis block
        match computeSnapshot chain parents none 0 with
        | .error e => fail e c
        | .ok genesisBlockSnapshot => run genesisBlockSnapshot (storeSnapshot c genesisBlockSnapshot)

section GetSnapshot

variable {chain : List Extra} {parents : List (Nat × Extra)} {blockNumber : Nat}
  {isPassedTxNil : Bool} {c : SnapshotCache} {P : ValidatorSnapshot → Prop}

theorem all_getSnapshot (hc : c.All P)
    (hgen : ∀ g, computeSnapshot chain parents none 0 = .ok g → P g)
    (hstep : ∀ extra K, getBlockData chain blockNumber = .ok extra →
      epochToGetSnapshot chain blockNumber extra = .ok K →
      ∀ latest n s, P latest → latest.epoch < K →
        getNextEpochEndingBlock chain latest.epochEndingBlock = .ok n →
        computeSnapshot chain parents (some latest) n = .ok s → P s) :
    (getSnapshot chain parents blockNumber isPassedTxNil c).2.All P ∧
      ∀ vs, (getSnapshot chain parents blockNumber isPassedTxNil c).1 = .ok vs →
        ∃ extra K s, getBlockData chain blockNumber = .ok extra ∧
          epochToGetSnapshot chain blockNumber extra = .ok K ∧ s.epoch = K ∧ P s ∧ vs = s.snapshot := by
  -- a failure keeps the memory map it reached and the database it reached or started from
  have hfail : ∀ c' : SnapshotCache, c'.All P →
      (if isPassedTxNil then { c' with db := c.db } else c').All P := by
    intro c' hc'
    split
    · intro k s hm
      rcases hm with hm | hm
      · exact hc' k s (.inl hm)
      · exact hc k s (.inr hm)
    · exact hc'
  unfold getSnapshot
  cases hb : getBlockData chain blockNumber with
  | error e => exact ⟨hfail c hc, fun vs h => by cases h⟩
  | ok extra =>
    dsimp only
    cases hK : epochToGetSnapshot chain blockNumber extra with
    | error e => exact ⟨hfail c hc, fun vs h => by cases h⟩
    | ok K =>
      dsimp only
      have hloop := all_applyDeltas (hstep extra K hb hK)
      -- the loop from a sound snapshot at or below `K`
      have hrun : ∀ latest c', P latest → latest.epoch ≤ K → c'.All P →
          (match applyDeltas chain parents K latest c' with
            | (.error e, c'') => ((.error e, if isPassedTxNil then { c'' with db := c.db } else c'') :
                Except SnapshotError AccountSet × SnapshotCache)
            | (.ok latest, c'') => (.ok latest.snapshot, cleanup c'')).2.All P ∧
          ∀ vs, (match applyDeltas chain parents K latest c' with
            | (.error e, c'') => ((.error e, if isPassedTxNil then { c'' with db := c.db } else c'') :
                Except SnapshotError AccountSet × SnapshotCache)
            | (.ok latest, c'') => (.ok latest.snapshot, cleanup c'')).1 = .ok vs →
            ∃ s, s.epoch = K ∧ P s ∧ vs = s.snapshot := by
        intro latest c' hl hle hc'
        obtain ⟨hall, hres⟩ := hloop latest c' hl hle hc'
        rcases hr : applyDeltas chain parents K latest c' with ⟨_ | s, c''⟩
        · rw [hr] at hall
          exact ⟨hfail c'' hall, fun vs h => by cases h⟩
        · rw [hr] at hall hres
          obtain ⟨hse, hs⟩ := hres s rfl
          exact ⟨SnapshotCache.all_cleanup hall, fun vs h => ⟨s, hse, hs, by cases h; rfl⟩⟩
      obtain ⟨hcall, hfound⟩ := SnapshotCache.all_getLastCachedSnapshot hc K
      rcases hl : getLastCachedSnapshot c K with ⟨_ | s, c'⟩
      · rw [hl] at hcall
        dsimp only
        cases hg : computeSnapshot chain parents none 0 with
        | error e => exact ⟨hfail c' hcall, fun vs h => by cases h⟩
        | ok g =>
          have hg0 : g.epoch = 0 := by
            obtain ⟨_, _, _, _, he, _⟩ := computeSnapshot_eq_ok.mp hg
            simpa using he
          obtain ⟨h1, h2⟩ := hrun g _ (hgen g hg) (by omega)
            (SnapshotCache.all_storeSnapshot hcall (hgen g hg))
          exact ⟨h1, fun vs h => by
            obtain ⟨s, hs⟩ := h2 vs h
            exact ⟨extra, K, s, rfl, hK, hs⟩⟩
      · rw [hl] at hcall hfound
        obtain ⟨hsK, hs⟩ := hfound s rfl
        dsimp only
        split
        · rename_i hse
          exact ⟨hcall, fun vs h => ⟨extra, K, s, rfl, hK, hse, hs, by cases h; rfl⟩⟩
        · obtain ⟨h1, h2⟩ := hrun s c' hs hsK hcall
          exact ⟨h1, fun vs h => by
            obtain ⟨s', hs'⟩ := h2 vs h
            exact ⟨extra, K, s', rfl, hK, hs'⟩⟩

theorem getSnapshot_isOk (hc : c.All P) {extra : Extra} {K : Nat}
    (hb : getBlockData chain blockNumber = .ok extra)
    (hK : epochToGetSnapshot chain blockNumber extra = .ok K)
    (hgen : ∃ g, computeSnapshot chain parents none 0 = .ok g ∧ P g)
    (hstep : ∀ latest n s, P latest → latest.epoch < K →
      getNextEpochEndingBlock chain latest.epochEndingBlock = .ok n →
      computeSnapshot chain parents (some latest) n = .ok s → P s)
    (hok : ∀ latest, P latest → latest.epoch < K → ∃ n s,
      getNextEpochEndingBlock chain latest.epochEndingBlock = .ok n ∧
      computeSnapshot chain parents (some latest) n = .ok s) :
    ∃ vs, (getSnapshot chain parents blockNumber isPassedTxNil c).1 = .ok vs := by
  have hrun : ∀ latest c', P latest →
      ∃ vs, (match applyDeltas chain parents K latest c' with
        | (.error e, c'') => ((.error e, if isPassedTxNil then { c'' with db := c.db } else c'') :
            Except SnapshotError AccountSet × SnapshotCache)
        | (.ok latest, c'') => (.ok latest.snapshot, cleanup c'')).1 = .ok vs := by
    intro latest c' hl
    obtain ⟨s, hs⟩ := applyDeltas_isOk hstep hok latest c' hl
    rcases hr : applyDeltas chain parents K latest c' with ⟨r, c''⟩
    rw [hr] at hs
    dsimp only at hs
    subst hs
    exact ⟨s.snapshot, rfl⟩
  unfold getSnapshot
  rw [hb]
  dsimp only
  rw [hK]
  dsimp only
  obtain ⟨-, hfound⟩ := SnapshotCache.all_getLastCachedSnapshot hc K
  rcases hl : getLastCachedSnapshot c K with ⟨_ | s, c'⟩
  · obtain ⟨g, hg, hgP⟩ := hgen
    dsimp only
    rw [hg]
    exact hrun g _ hgP
  · rw [hl] at hfound
    dsimp only
    split
    · exact ⟨s.snapshot, rfl⟩
    · exact hrun s c' (hfound s rfl).2

end GetSnapshot

end Blade
