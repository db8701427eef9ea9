import Blade.Blockchain.BaseFee

/-!
Fork activation by governance (`consensus/polybft/governance_manager.go`,
`forkmanager/fork_manager.go`, `consensus/polybft/state_store_governance.go`).

The `ForkParams` events of a finalized block are stored first, the latest one per fork hash
winning; `PostBlock` then reads every stored event and activates each fork from its block in the
`forkmanager` singleton. Only the fork map of the singleton is modelled: `IsForkEnabled` reads
nothing else, and handlers and parameters follow the fork's activation. Go's map iteration has
no order, so `PostBlock` takes the stored events as a list in any order.

`ActivateFork` leaves a fork that is already active as it is, and `activateSingleFork` deactivates
an active fork only when it is enabled at the current block and the event moves it later. A fork
that is active but not yet reached keeps its old block when an event moves it, and so does an
enabled fork that an event moves earlier: the fork state then depends on the history of the node,
not only on the stored events.
-/

namespace Blade

namespace ForkManager

/-- `forkmanager.Fork`, with the fields `IsForkEnabled` reads. -/
structure Fork where
  isActive : Bool
  fromBlockNumber : UInt64
  deriving DecidableEq, Repr

end ForkManager

/-- The fork map of the `forkmanager` singleton. -/
structure ForkManager where
  forkMap : String → Option ForkManager.Fork

namespace ForkManager

def clear : ForkManager := ⟨fun _ => none⟩

def registerFork (fm : ForkManager) (name : String) : ForkManager :=
  ⟨Function.update fm.forkMap name (some ⟨false, 0⟩)⟩

def activateFork (fm : ForkManager) (forkName : String) (blockNumber : UInt64) :
    Except String ForkManager :=
  match fm.forkMap forkName with
  | none => .error ("fork does not exist: " ++ forkName)
  | some fork =>
    if fork.isActive then .ok fm
    else .ok ⟨Function.update fm.forkMap forkName (some ⟨true, blockNumber⟩)⟩

def deactivateFork (fm : ForkManager) (forkName : String) : Except String ForkManager :=
  match fm.forkMap forkName with
  | none => .error ("fork does not exist: " ++ forkName)
  | some fork =>
    if !fork.isActive then .ok fm
    else .ok ⟨Function.update fm.forkMap forkName (some { fork with isActive := false })⟩

def isForkRegistered (fm : ForkManager) (name : String) : Bool := (fm.forkMap name).isSome

def isForkEnabled (fm : ForkManager) (name : String) (blockNumber : UInt64) : Bool :=
  match fm.forkMap name with
  | none => false
  | some fork => fork.isActive && fork.fromBlockNumber ≤ blockNumber

end ForkManager

open ForkManager

/-- How `PostBlock` ends besides succeeding: an error it returns, or the panic on a fork hash the
code does not know. -/
inductive PostBlockError
  | error (msg : String)
  | unknownFork (forkHash : Hash)

/-- `allForkNameHashes` of `newGovernanceManager`: each fork name of the code under the hash
`forkNameHash` gives it (the Keccak hash of its ABI encoding). -/
def allForkNameHashes (forkNameHash : String → Hash) (names : List String) : Hash → Option String :=
  names.foldl (fun m name => Function.update m (forkNameHash name) (some name)) fun _ => none

/-- `insertGovernanceEvent` for a `ForkParams` event: the bucket keeps one block per fork hash. -/
def insertForkEvent (store : Hash → Option ℕ) (forkHash : Hash) (forkBlock : ℕ) :
    Hash → Option ℕ :=
  Function.update store forkHash (some forkBlock)

section Governance

variable (allForksHashes : Hash → Option String)

/-- The last step of `activateSingleFork`: `ActivateFork`, with the error it reports. -/
def activateForkFromEvent (forkManager : ForkManager) (forkName : String) (blockNum : UInt64) :
    Except PostBlockError ForkManager :=
  (forkManager.activateFork forkName blockNum).mapError fun _ =>
    .error ("could not activate fork: " ++ forkName ++ " for block: " ++ toString blockNum ++
      " based on ForkParams event")

def activateSingleFork (forkManager : ForkManager) (currentBlock : UInt64) (forkHash : Hash)
    (forkBlock : ℕ) : Except PostBlockError ForkManager :=
  match allForksHashes forkHash with
  | none => .error (.unknownFork forkHash)
  | some forkName =>
    let forkManager :=
      if forkManager.isForkRegistered forkName then forkManager else forkManager.registerFork forkName
    -- `forkBlock.Uint64()`: the low 64 bits of the stored block
    let blockNum := UInt64.ofNat forkBlock
    if forkManager.isForkEnabled forkName currentBlock then
      if currentBlock ≥ blockNum then .ok forkManager
      else
        match forkManager.deactivateFork forkName with
        | .error err => .error (.error ("could not deactivate fork: " ++ forkName ++ ". Error: " ++ err))
        | .ok forkManager => activateForkFromEvent forkManager forkName blockNum
    else activateForkFromEvent forkManager forkName blockNum

def activateNewForks (forkManager : ForkManager) (currentBlock : UInt64) :
    List (Hash × ℕ) → Except PostBlockError ForkManager
  | [] => .ok forkManager
  | (forkHash, forkBlock) :: forkEvents => do
    let forkManager ← activateSingleFork allForksHashes forkManager currentBlock forkHash forkBlock
    activateNewForks forkManager currentBlock forkEvents

/-- `PostBlock` of the governance manager, with `forkEvents` what `getAllForkEvents` returned, in
the order the map is iterated. -/
def postBlock (forks : Forks) (forkManager : ForkManager) (blockNumber : UInt64)
    (forkEvents : List (Hash × ℕ)) : Except PostBlockError ForkManager :=
  if !forks.isActive .governance blockNumber then .ok forkManager
  else activateNewForks allForksHashes forkManager blockNumber forkEvents

/-- The fork after an event activating it from `blockNum`, processed at block `currentBlock`: a
fork enabled there moves only to a later block, an active fork not yet reached keeps its block,
and any other fork is activated from `blockNum`. -/
def activatedFork (fork : Option ForkManager.Fork) (currentBlock blockNum : UInt64) : ForkManager.Fork :=
  match fork with
  | some ⟨true, fromBlockNumber⟩ =>
    if fromBlockNumber ≤ currentBlock ∧ currentBlock < blockNum then ⟨true, blockNum⟩
    else ⟨true, fromBlockNumber⟩
  | _ => ⟨true, blockNum⟩

theorem activatedFork_isActive (fork : Option ForkManager.Fork) (currentBlock blockNum : UInt64) :
    (activatedFork fork currentBlock blockNum).isActive = true := by
  unfold activatedFork
  split
  · split <;> rfl
  · rfl

theorem activatedFork_of_not_active {fork : Option ForkManager.Fork} (h : ∀ f, fork ≠ some ⟨true, f⟩)
    (currentBlock blockNum : UInt64) : activatedFork fork currentBlock blockNum = ⟨true, blockNum⟩ := by
  unfold activatedFork
  split
  · exact absurd rfl (h _)
  · rfl

variable {allForksHashes}

theorem activateSingleFork_eq_ok {forkManager : ForkManager} {forkHash : Hash} {forkName : String}
    (hname : allForksHashes forkHash = some forkName) (currentBlock : UInt64) (forkBlock : ℕ) :
    activateSingleFork allForksHashes forkManager currentBlock forkHash forkBlock =
      .ok ⟨Function.update forkManager.forkMap forkName
        (some (activatedFork (forkManager.forkMap forkName) currentBlock (UInt64.ofNat forkBlock)))⟩ := by
  obtain ⟨m⟩ := forkManager
  simp only at *
  rcases hf : m forkName with _ | ⟨_ | _, f⟩
  · -- not registered: registered inactive, then activated
    simp [activateSingleFork, hname, hf, isForkRegistered, registerFork, isForkEnabled,
      activateForkFromEvent, activateFork, activatedFork, Except.mapError]
  · -- registered but inactive: activated
    simp [activateSingleFork, hname, hf, isForkRegistered, isForkEnabled, activateForkFromEvent,
      activateFork, activatedFork, Except.mapError]
  · -- active: kept unless enabled and moved later
    by_cases hfc : f ≤ currentBlock
    · by_cases hcb : currentBlock < UInt64.ofNat forkBlock
      · simp [activateSingleFork, hname, hf, isForkRegistered, isForkEnabled, hfc, hcb,
          UInt64.not_le.mpr hcb, deactivateFork, activateForkFromEvent, activateFork, activatedFork,
          Except.mapError]
      · have hle : UInt64.ofNat forkBlock ≤ currentBlock := UInt64.not_lt.mp hcb
        have hm : Function.update m forkName (some ⟨true, f⟩) = m := by
          rw [Function.update_eq_self_iff, hf]
        simp [activateSingleFork, hname, hf, isForkRegistered, isForkEnabled, hfc, hcb, hle,
          activatedFork, hm]
    · have hm : Function.update m forkName (some ⟨true, f⟩) = m := by
        rw [Function.update_eq_self_iff, hf]
      simp [activateSingleFork, hname, hf, isForkRegistered, isForkEnabled, hfc,
        activateForkFromEvent, activateFork, activatedFork, Except.mapError, hm]

theorem activateNewForks_eq_ok {forkEvents : List (Hash × ℕ)}
    (hknown : ∀ e ∈ forkEvents, (allForksHashes e.1).isSome)
    (hdistinct : (forkEvents.map fun e => allForksHashes e.1).Nodup)
    (forkManager : ForkManager) (currentBlock : UInt64) :
    ∃ forkManager', activateNewForks allForksHashes forkManager currentBlock forkEvents =
        .ok forkManager' ∧
      ∀ forkName, forkManager'.forkMap forkName =
        match forkEvents.find? (fun e => allForksHashes e.1 == some forkName) with
        | some e => some (activatedFork (forkManager.forkMap forkName) currentBlock (UInt64.ofNat e.2))
        | none => forkManager.forkMap forkName := by
  induction forkEvents generalizing forkManager with
  | nil => exact ⟨forkManager, rfl, fun _ => rfl⟩
  | cons e forkEvents ih =>
    obtain ⟨forkHash, forkBlock⟩ := e
    obtain ⟨name, hname⟩ := Option.isSome_iff_exists.mp (hknown _ List.mem_cons_self)
    simp only [List.map_cons, List.nodup_cons, List.mem_map] at hdistinct
    obtain ⟨hnotin, hrest⟩ := hdistinct
    obtain ⟨forkManager', hrun, hmap⟩ :=
      ih (fun e he => hknown e (List.mem_cons_of_mem _ he)) hrest
        ⟨Function.update forkManager.forkMap name
          (some (activatedFork (forkManager.forkMap name) currentBlock (UInt64.ofNat forkBlock)))⟩
    refine ⟨forkManager', ?_, fun forkName => ?_⟩
    · simp only [activateNewForks, activateSingleFork_eq_ok hname, bind, Except.bind, hrun]
    rw [hmap forkName]
    by_cases hF : forkName = name
    · -- the event's own fork: no later event names it
      subst hF
      have hnone : forkEvents.find? (fun e => allForksHashes e.1 == some forkName) = none := by
        rw [List.find?_eq_none]
        intro e he heq
        exact hnotin ⟨e, he, by rw [beq_iff_eq] at heq; rw [heq, hname]⟩
      simp [hnone, hname]
    · have hne : (allForksHashes forkHash == some forkName) = false := by
        rw [hname, beq_eq_false_iff_ne]
        exact fun h => hF (Option.some.inj h).symm
      simp only [List.find?_cons, hne]
      cases hfind : forkEvents.find? (fun e => allForksHashes e.1 == some forkName) <;>
        simp [Function.update_of_ne hF]

theorem allForkNameHashes_eq_some {forkNameHash : String → Hash} {names : List String}
    {forkHash : Hash} {name : String} (h : allForkNameHashes forkNameHash names forkHash = some name) :
    forkNameHash name = forkHash := by
  -- every entry of the map built so far is the hash of its name
  suffices hinv : ∀ m : Hash → Option String, (∀ h n, m h = some n → forkNameHash n = h) →
      ∀ h n, names.foldl (fun m name => Function.update m (forkNameHash name) (some name)) m h =
        some n → forkNameHash n = h from
    hinv _ (fun _ _ hm => by cases hm) _ _ h
  clear h
  induction names with
  | nil => exact fun m hm => hm
  | cons name names ih =>
    intro m hm
    apply ih
    intro h n hu
    dsimp only at hu
    by_cases hh : h = forkNameHash name
    · subst hh
      rw [Function.update_self, Option.some.injEq] at hu
      rw [hu]
    · rw [Function.update_of_ne hh] at hu
      exact hm h n hu

end Governance

section PostBlock

variable {forkNameHash : String → Hash} {names : List String} {store : Hash → Option ℕ}
  {forkEvents : List (Hash × ℕ)}

/-- The events `getAllForkEvents` returns: the stored ones, each hash once, in any order. -/
def Enumerates (store : Hash → Option ℕ) (forkEvents : List (Hash × ℕ)) : Prop :=
  (forkEvents.map Prod.fst).Nodup ∧
    ∀ forkHash forkBlock, (forkHash, forkBlock) ∈ forkEvents ↔ store forkHash = some forkBlock

theorem Enumerates.distinct (henum : Enumerates store forkEvents)
    (hknown : ∀ e ∈ forkEvents, (allForkNameHashes forkNameHash names e.1).isSome) :
    (forkEvents.map fun e => allForkNameHashes forkNameHash names e.1).Nodup := by
  have hcomp : (forkEvents.map fun e => allForkNameHashes forkNameHash names e.1) =
      (forkEvents.map Prod.fst).map (allForkNameHashes forkNameHash names) := by
    rw [List.map_map]
    rfl
  rw [hcomp]
  refine henum.1.map_on fun x hx y hy hxy => ?_
  -- distinct hashes of known forks name distinct forks
  obtain ⟨ex, hex, rfl⟩ := List.mem_map.mp hx
  obtain ⟨name, hname⟩ := Option.isSome_iff_exists.mp (hknown ex hex)
  rw [hname] at hxy
  exact (allForkNameHashes_eq_some hname).symm.trans (allForkNameHashes_eq_some hxy.symm)

theorem Enumerates.find?_eq_some (henum : Enumerates store forkEvents) {forkHash : Hash}
    {forkName : String} {forkBlock : ℕ}
    (hname : allForkNameHashes forkNameHash names forkHash = some forkName)
    (hstore : store forkHash = some forkBlock) :
    forkEvents.find? (fun e => allForkNameHashes forkNameHash names e.1 == some forkName) =
      some (forkHash, forkBlock) := by
  have hmem := (henum.2 forkHash forkBlock).mpr hstore
  cases hfind : forkEvents.find? (fun e => allForkNameHashes forkNameHash names e.1 == some forkName)
    with
  | none =>
    rw [List.find?_eq_none] at hfind
    exact absurd (by simpa using hname) (hfind _ hmem)
  | some e =>
    -- the event found is the one stored under the fork's hash
    have hp := List.find?_some hfind
    rw [beq_iff_eq] at hp
    have hhash : e.1 = forkHash :=
      (allForkNameHashes_eq_some hp).symm.trans (allForkNameHashes_eq_some hname)
    have he := (henum.2 e.1 e.2).mp (List.mem_of_find?_eq_some hfind)
    rw [hhash, hstore, Option.some.injEq] at he
    rw [he, ← hhash]

/-- After `PostBlock`, a stored fork is enabled from the block of `activatedFork`: from its
stored block when it was not active before, and otherwise possibly from the block of an earlier
event. -/
theorem postBlock_forkEnabled_of_history {forks : Forks} {forkManager : ForkManager}
    {blockNumber : UInt64} (hgov : forks.isActive .governance blockNumber = true)
    (henum : Enumerates store forkEvents)
    (hknown : ∀ forkHash forkBlock, store forkHash = some forkBlock →
      (allForkNameHashes forkNameHash names forkHash).isSome) :
    ∃ forkManager', postBlock (allForkNameHashes forkNameHash names) forks forkManager blockNumber
        forkEvents = .ok forkManager' ∧
      ∀ forkHash forkName forkBlock, allForkNameHashes forkNameHash names forkHash = some forkName →
        store forkHash = some forkBlock → ∀ n,
          forkManager'.isForkEnabled forkName n =
              decide ((activatedFork (forkManager.forkMap forkName) blockNumber
                (UInt64.ofNat forkBlock)).fromBlockNumber ≤ n) ∧
            ((∀ f, forkManager.forkMap forkName ≠ some ⟨true, f⟩) →
              forkManager'.isForkEnabled forkName n = decide (UInt64.ofNat forkBlock ≤ n)) := by
  have hknown' : ∀ e ∈ forkEvents, (allForkNameHashes forkNameHash names e.1).isSome :=
    fun e he => hknown e.1 e.2 ((henum.2 e.1 e.2).mp he)
  obtain ⟨forkManager', hrun, hmap⟩ :=
    activateNewForks_eq_ok hknown' (henum.distinct hknown') forkManager blockNumber
  refine ⟨forkManager', by simp [postBlock, hgov, hrun], ?_⟩
  intro forkHash forkName forkBlock hname hstore n
  have hF : forkManager'.forkMap forkName =
      some (activatedFork (forkManager.forkMap forkName) blockNumber (UInt64.ofNat forkBlock)) := by
    rw [hmap, henum.find?_eq_some hname hstore]
  have henabled : forkManager'.isForkEnabled forkName n =
      decide ((activatedFork (forkManager.forkMap forkName) blockNumber
        (UInt64.ofNat forkBlock)).fromBlockNumber ≤ n) := by
    simp [isForkEnabled, hF, activatedFork_isActive]
  exact ⟨henabled, fun hna => by rw [henabled, activatedFork_of_not_active hna]⟩

/-- The fork `newFork` is scheduled for block 100 by an event of block 1, and moved to block 50 by
an event of block 2. The node that processed both blocks still enables it from block 100; a node
started on the same store enables it from block 50. -/
theorem postBlock_forkEnabled_of_history_rescheduled :
    let allForksHashes := allForkNameHashes (fun _ => 1) ["newFork"]
    let forks : Forks := fun _ => some ⟨0⟩
    let store := insertForkEvent (insertForkEvent (fun _ => none) 1 100) 1 50
    ((postBlock allForksHashes forks ForkManager.clear 1 [(1, 100)]).toOption.map
        fun fm => fm.forkMap "newFork") = some (some ⟨true, 100⟩) ∧
      ((postBlock allForksHashes forks ForkManager.clear 1 [(1, 100)]).bind fun fm =>
          postBlock allForksHashes forks fm 2 [(1, 50)]).toOption.map
        (fun fm => fm.isForkEnabled "newFork" 50) = some false ∧
      ((postBlock allForksHashes forks ForkManager.clear 2 [(1, 50)]).toOption.map
        fun fm => fm.isForkEnabled "newFork" 50) = some true ∧
      ∃ forkManager', postBlock allForksHashes forks
          ⟨Function.update (fun _ => none) "newFork" (some ⟨true, 100⟩)⟩ 2 [(1, 50)] =
          .ok forkManager' ∧
        ∀ forkHash forkName forkBlock, allForksHashes forkHash = some forkName →
          store forkHash = some forkBlock → ∀ n,
            forkManager'.isForkEnabled forkName n =
                decide ((activatedFork
                  ((⟨Function.update (fun _ => none) "newFork" (some ⟨true, 100⟩)⟩ :
                    ForkManager).forkMap forkName) 2 (UInt64.ofNat forkBlock)).fromBlockNumber ≤ n) ∧
              ((∀ f, (⟨Function.update (fun _ => none) "newFork" (some ⟨true, 100⟩)⟩ :
                  ForkManager).forkMap forkName ≠ some ⟨true, f⟩) →
                forkManager'.isForkEnabled forkName n = decide (UInt64.ofNat forkBlock ≤ n)) := by
  refine ⟨by decide, by decide, by decide, ?_⟩
  have henum : Enumerates (insertForkEvent (insertForkEvent (fun _ => none) 1 100) 1 50)
      [(1, 50)] := by
    refine ⟨by simp, fun forkHash forkBlock => ?_⟩
    by_cases h : forkHash = 1
    · subst h
      simp [insertForkEvent, eq_comm]
    · simp [insertForkEvent, h]
  exact postBlock_forkEnabled_of_history (by decide) henum fun forkHash forkBlock hstore => by
    by_cases h : forkHash = 1
    · subst h
      decide
    · simp [insertForkEvent, h] at hstore

end PostBlock

end Blade
