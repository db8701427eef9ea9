import Mathlib
import Blade.State.Executor
import Blade.Types.RlpUnmarshal

/-!
The two paths by which a node accepts a block. The consensus state machine's `Validate`
re-executes a proposal and compares its state root and transaction root, and `Insert` compares
the proposal's hash with the block rebuilt from it. The sync path's `VerifyFinalizedBlock` also
bounds the gas limit by the parent's and compares the gas used and the receipts root with its own
execution. The rebuilt block keeps every header field of the proposal but its roots, so a field
that only the sync path compares is never compared on the consensus path.

The decoding of the proposal bytes, the extra-data, signature and checkpoint checks of
`Validate`, the seal checks of the sync path, the executor and the trie roots are parameters.
-/

namespace Blade

/-- The header fields that either path reads. -/
structure Header where
  parentHash : Hash
  sha3Uncles : Hash
  miner : Address
  stateRoot : Hash
  txRoot : Hash
  receiptsRoot : Hash
  difficulty : ℕ
  number : ℕ
  gasLimit : ℕ
  gasUsed : ℕ
  timestamp : ℕ
  extraData : List UInt8
  mixHash : Hash
  nonce : ℕ
  hash : Hash
  baseFee : ℕ
  deriving DecidableEq, Repr

structure FullBlock where
  block : Block Header Transaction
  receipts : List Receipt

/-- The header fields the executor reads when it begins a block (`BeginTxn`, `GetHash`) and
when it checks each transaction's gas against the block. -/
structure BlockContext where
  parentHash : Hash
  number : ℕ
  timestamp : ℕ
  difficulty : ℕ
  baseFee : ℕ
  gasLimit : ℕ
  deriving DecidableEq, Repr

def Header.blockContext (h : Header) : BlockContext :=
  ⟨h.parentHash, h.number, h.timestamp, h.difficulty, h.baseFee, h.gasLimit⟩

/-- What executing and committing a block reports. -/
structure BlockResult where
  root : Hash
  receipts : List Receipt
  totalGas : ℕ
  deriving DecidableEq, Repr

def extraVanity : ℕ := 32

def polyBFTMixDigest : Hash :=
  ⟨0xadce6e5230abe012342a44e4e9b6d05997d6f015387ae0e59be924afc7ec70c1, by decide⟩

def emptyUncleHash : Hash :=
  ⟨0x1dcc4de8dec75d7aab85b567b6ccd41ad312451b948a7413f0a142fd40d49347, by decide⟩

def blockGasTargetDivisor : ℕ := 1024

/-- `ComputeHash`: cache the hash of the other fields. -/
def Header.computeHash (headerHash : Header → Hash) (h : Header) : Header :=
  { h with hash := headerHash h }

inductive HeaderError
  | extraDataTooShort
  | incorrectParentHash
  | invalidNumber
  | blockFromFuture
  | invalidNonce
  | invalidGasLimit
  | timestampOlderThanParent
  | mixDigest
  | difficulty
  | invalidHeaderHash
  deriving DecidableEq, Repr

inductive ValidateError
  | header (e : HeaderError)
  | extra (msg : String)
  | processBlock (msg : String)
  | incorrectStateRoot
  | incorrectTxRoot
  deriving DecidableEq, Repr

inductive InsertError
  | proposalDontMatch
  deriving DecidableEq, Repr

inductive BlockError
  | parentNotFound
  | invalidParentHash
  | parentHashMismatch
  | invalidBlockSequence
  | gasUsedExceedsGasLimit
  | invalidGasLimit
  | invalidSha3Uncles
  | invalidTxRoot
  | invalidReceiptsSize
  | invalidStateRoot
  | invalidGasUsed
  | invalidReceiptsRoot
  | verifyHeader (e : HeaderError)
  | finalizedData (msg : String)
  | execute (msg : String)
  deriving DecidableEq, Repr

section Paths

-- `HeaderHash`, the clock and the trie roots, as the node computes them.
variable (headerHash : Header → Hash) (now blockTimeDrift : ℕ)
  (calculateTransactionsRoot : List Transaction → ℕ → Hash)
  (calculateReceiptsRoot : List Receipt → Hash) (calculateUncleRoot : List Header → Hash)
-- The executor's `ProcessBlock` followed by `Commit`, from a parent state root.
variable (executorProcessBlock : Hash → BlockContext → Address → List Transaction →
  Except String BlockResult)

def validateHeaderFields (parent header : Header) : Except HeaderError Unit :=
  if header.extraData.length < extraVanity then .error .extraDataTooShort
  else if parent.hash ≠ header.parentHash then .error .incorrectParentHash
  else if header.number ≠ parent.number + 1 then .error .invalidNumber
  else if header.timestamp > now + blockTimeDrift then .error .blockFromFuture
  else if header.nonce ≠ 0 then .error .invalidNonce
  else if header.gasUsed > header.gasLimit then .error .invalidGasLimit
  else if header.timestamp ≤ parent.timestamp then .error .timestampOlderThanParent
  else if header.mixHash ≠ polyBFTMixDigest then .error .mixDigest
  else if header.difficulty ≤ 0 then .error .difficulty
  else if header.hash ≠ headerHash header then .error .invalidHeaderHash
  else .ok ()

/-- `consensus.BuildBlock`: the header with the roots of the given transactions and receipts,
no uncles, and its hash recomputed. -/
def buildBlock (header : Header) (txs : List Transaction) (receipts : List Receipt) :
    Block Header Transaction :=
  let txRoot := if txs.isEmpty then emptyRootHash else calculateTransactionsRoot txs header.number
  let receiptsRoot := if receipts.isEmpty then emptyRootHash else calculateReceiptsRoot receipts
  ⟨{ header with txRoot, receiptsRoot, sha3Uncles := emptyUncleHash }.computeHash headerHash,
    txs, []⟩

/-- The blockchain wrapper's `ProcessBlock`: execute on the parent's state root, compare the
state root, rebuild the block and compare its transaction root. -/
def processBlock (parent : Header) (block : Block Header Transaction) :
    Except ValidateError FullBlock :=
  match executorProcessBlock parent.stateRoot block.header.blockContext block.header.miner
      block.transactions with
  | .error e => .error (.processBlock e)
  | .ok br =>
    if br.root ≠ block.header.stateRoot then .error .incorrectStateRoot
    else
      let built := buildBlock headerHash calculateTransactionsRoot calculateReceiptsRoot
        block.header block.transactions br.receipts
      if built.header.txRoot ≠ block.header.txRoot then .error .incorrectTxRoot
      else .ok ⟨built, br.receipts⟩

-- The checks of `Validate` between the header fields and the execution (extra data, parent
-- signatures, state transactions, validator delta, checkpoint): they read the parent and the
-- proposal's extra data, number and transactions.
variable (validateExtra : Header → List UInt8 → ℕ → List Transaction → Except String Unit)

/-- `fsm.Validate` on the decoded proposal; the block it returns becomes the target. -/
def validate (parent : Header) (block : Block Header Transaction) :
    Except ValidateError FullBlock :=
  match validateHeaderFields headerHash now blockTimeDrift parent block.header with
  | .error e => .error (.header e)
  | .ok () =>
    match validateExtra parent block.header.extraData block.header.number block.transactions with
    | .error e => .error (.extra e)
    | .ok () => processBlock headerHash calculateTransactionsRoot calculateReceiptsRoot
        executorProcessBlock parent block

/-- `fsm.Insert` up to the sealing: the target must have the proposal's hash. What follows only
writes the committed seals into the target's extra data. -/
def insert (target : Option FullBlock) (proposed : Block Header Transaction) :
    Except InsertError FullBlock :=
  match target with
  | some newBlock =>
    if newBlock.block.header.hash ≠ proposed.header.hash then .error .proposalDontMatch
    else .ok newBlock
  | none => .error .proposalDontMatch

-- The chain's headers by hash, the seal checks of a finalized header against its parent, and
-- the consensus hook run on the executed block.
variable (readHeader : Hash → Option Header)
  (validateFinalizedData : Header → Header → Except String Unit)
  (preCommitState : ℕ → List Transaction → Except String Unit)

def verifyHeader (header : Header) : Except BlockError Unit :=
  match readHeader header.hash with
  | some _ => .ok ()
  | none =>
    match readHeader header.parentHash with
    | none => .error .parentNotFound
    | some parent =>
      match validateHeaderFields headerHash now blockTimeDrift parent header with
      | .error e => .error (.verifyHeader e)
      | .ok () => (validateFinalizedData header parent).mapError .finalizedData

/-- `verifyGasLimit`; the difference of the limits is taken in `int64`, exact below `2 ^ 63`. -/
def verifyGasLimit (header parentHeader : Header) : Except BlockError Unit :=
  if header.gasUsed > header.gasLimit then .error .gasUsedExceedsGasLimit
  else if header.number = 0 then .ok ()
  else if ((parentHeader.gasLimit : ℤ) - header.gasLimit).natAbs >
      parentHeader.gasLimit / blockGasTargetDivisor then .error .invalidGasLimit
  else .ok ()

def verifyBlockParent (childBlock : Block Header Transaction) : Except BlockError Unit :=
  match readHeader childBlock.header.parentHash with
  | none => .error .parentNotFound
  | some parent =>
    if parent.hash = 0 then .error .invalidParentHash
    else if childBlock.header.parentHash ≠ parent.hash then .error .parentHashMismatch
    -- the block number is a `uint64`: the number before block zero wraps
    else if (childBlock.header.number + (2 ^ 64 - 1)) % 2 ^ 64 ≠ parent.number then
      .error .invalidBlockSequence
    else verifyGasLimit childBlock.header parent

def executeBlockTransactions (block : Block Header Transaction) :
    Except BlockError BlockResult :=
  match readHeader block.header.parentHash with
  | none => .error .parentNotFound
  | some parent =>
    match executorProcessBlock parent.stateRoot block.header.blockContext block.header.miner
        block.transactions with
    | .error e => .error (.execute e)
    | .ok br =>
      match preCommitState block.header.number block.transactions with
      | .error e => .error (.execute e)
      | .ok () => .ok br

def BlockResult.verifyBlockResult (br : BlockResult) (referenceBlock : Block Header Transaction) :
    Except BlockError Unit :=
  if br.receipts.length ≠ referenceBlock.transactions.length then .error .invalidReceiptsSize
  else if br.root ≠ referenceBlock.header.stateRoot then .error .invalidStateRoot
  else if br.totalGas ≠ referenceBlock.header.gasUsed then .error .invalidGasUsed
  else if calculateReceiptsRoot br.receipts ≠ referenceBlock.header.receiptsRoot then
    .error .invalidReceiptsRoot
  else .ok ()

def verifyBlockBody (block : Block Header Transaction) : Except BlockError (List Receipt) :=
  if calculateUncleRoot block.uncles ≠ block.header.sha3Uncles then .error .invalidSha3Uncles
  else if calculateTransactionsRoot block.transactions block.header.number ≠ block.header.txRoot then
    .error .invalidTxRoot
  else
    match executeBlockTransactions executorProcessBlock readHeader preCommitState block with
    | .error e => .error e
    | .ok br => (br.verifyBlockResult calculateReceiptsRoot block).map fun _ => br.receipts

/-- `Blockchain.VerifyFinalizedBlock`, the check of a block received by sync. -/
def verifyFinalizedBlock (block : Block Header Transaction) : Except BlockError FullBlock :=
  match verifyHeader headerHash now blockTimeDrift readHeader validateFinalizedData block.header with
  | .error e => .error e
  | .ok () =>
    match verifyBlockParent readHeader block with
    | .error e => .error e
    | .ok () =>
      (verifyBlockBody calculateTransactionsRoot calculateReceiptsRoot calculateUncleRoot
        executorProcessBlock readHeader preCommitState block).map fun receipts => ⟨block, receipts⟩

/-! ## What each check accepts -/

variable {headerHash now blockTimeDrift calculateTransactionsRoot calculateReceiptsRoot
  calculateUncleRoot executorProcessBlock validateExtra readHeader validateFinalizedData
  preCommitState}

theorem validateHeaderFields_eq_ok {parent header : Header} :
    validateHeaderFields headerHash now blockTimeDrift parent header = .ok () ↔
      extraVanity ≤ header.extraData.length ∧ parent.hash = header.parentHash ∧
      header.number = parent.number + 1 ∧ header.timestamp ≤ now + blockTimeDrift ∧
      header.nonce = 0 ∧ header.gasUsed ≤ header.gasLimit ∧ parent.timestamp < header.timestamp ∧
      header.mixHash = polyBFTMixDigest ∧ 0 < header.difficulty ∧
      header.hash = headerHash header := by
  unfold validateHeaderFields
  simp only [Lib.ite_error_eq_ok, not_lt, not_le, gt_iff_lt, ne_eq, not_not, and_true]

theorem processBlock_eq_ok {parent : Header} {block : Block Header Transaction} {fb : FullBlock} :
    processBlock headerHash calculateTransactionsRoot calculateReceiptsRoot executorProcessBlock
        parent block = .ok fb ↔
      ∃ br, executorProcessBlock parent.stateRoot block.header.blockContext block.header.miner
          block.transactions = .ok br ∧ br.root = block.header.stateRoot ∧
        (buildBlock headerHash calculateTransactionsRoot calculateReceiptsRoot block.header
          block.transactions br.receipts).header.txRoot = block.header.txRoot ∧
        fb = ⟨buildBlock headerHash calculateTransactionsRoot calculateReceiptsRoot block.header
          block.transactions br.receipts, br.receipts⟩ := by
  unfold processBlock
  cases hx : executorProcessBlock parent.stateRoot block.header.blockContext block.header.miner
      block.transactions with
  | error e => simp
  | ok br =>
    simp only [Except.ok.injEq, exists_eq_left']
    split_ifs with hroot htx
    · simp [hroot]
    · simp [htx]
    · simp_all [eq_comm]

theorem validate_eq_ok {parent : Header} {block : Block Header Transaction} {fb : FullBlock} :
    validate headerHash now blockTimeDrift calculateTransactionsRoot calculateReceiptsRoot
        executorProcessBlock validateExtra parent block = .ok fb ↔
      validateHeaderFields headerHash now blockTimeDrift parent block.header = .ok () ∧
      validateExtra parent block.header.extraData block.header.number block.transactions = .ok () ∧
      processBlock headerHash calculateTransactionsRoot calculateReceiptsRoot executorProcessBlock
        parent block = .ok fb := by
  unfold validate
  cases validateHeaderFields headerHash now blockTimeDrift parent block.header with
  | error e => simp
  | ok u =>
    cases validateExtra parent block.header.extraData block.header.number block.transactions with
    | error e => simp
    | ok u => simp

theorem verifyBlockResult_eq_ok {br : BlockResult} {block : Block Header Transaction} :
    br.verifyBlockResult calculateReceiptsRoot block = .ok () ↔
      br.receipts.length = block.transactions.length ∧ br.root = block.header.stateRoot ∧
      br.totalGas = block.header.gasUsed ∧
      calculateReceiptsRoot br.receipts = block.header.receiptsRoot := by
  unfold BlockResult.verifyBlockResult
  split_ifs <;> simp_all

theorem executeBlockTransactions_eq_ok {block : Block Header Transaction} {br : BlockResult} :
    executeBlockTransactions executorProcessBlock readHeader preCommitState block = .ok br ↔
      ∃ parent, readHeader block.header.parentHash = some parent ∧
        executorProcessBlock parent.stateRoot block.header.blockContext block.header.miner
          block.transactions = .ok br ∧
        preCommitState block.header.number block.transactions = .ok () := by
  unfold executeBlockTransactions
  cases readHeader block.header.parentHash with
  | none => simp
  | some parent =>
    dsimp only
    cases hx : executorProcessBlock parent.stateRoot block.header.blockContext block.header.miner
        block.transactions with
    | error e => simp [hx]
    | ok br' =>
      dsimp only
      cases hc : preCommitState block.header.number block.transactions with
      | error e => simp
      | ok u => simp [hx, eq_comm]

theorem verifyBlockBody_eq_ok {block : Block Header Transaction} {receipts : List Receipt} :
    verifyBlockBody calculateTransactionsRoot calculateReceiptsRoot calculateUncleRoot
        executorProcessBlock readHeader preCommitState block = .ok receipts ↔
      calculateUncleRoot block.uncles = block.header.sha3Uncles ∧
      calculateTransactionsRoot block.transactions block.header.number = block.header.txRoot ∧
      ∃ br, executeBlockTransactions executorProcessBlock readHeader preCommitState block = .ok br ∧
        br.verifyBlockResult calculateReceiptsRoot block = .ok () ∧ receipts = br.receipts := by
  unfold verifyBlockBody
  split_ifs with hu ht
  · simp [hu]
  · simp [ht]
  · simp only [ne_eq, not_not] at hu ht
    cases executeBlockTransactions executorProcessBlock readHeader preCommitState block with
    | error e => simp [hu, ht]
    | ok br =>
      dsimp only
      cases hr : br.verifyBlockResult calculateReceiptsRoot block with
      | error e => simp [hr, Except.map]
      | ok u =>
        simp only [hu, ht, hr, Except.map, Except.ok.injEq, true_and, exists_eq_left']
        exact eq_comm

theorem verifyFinalizedBlock_eq_ok {block : Block Header Transaction} {fb : FullBlock} :
    verifyFinalizedBlock headerHash now blockTimeDrift calculateTransactionsRoot
        calculateReceiptsRoot calculateUncleRoot executorProcessBlock readHeader
        validateFinalizedData preCommitState block = .ok fb ↔
      verifyHeader headerHash now blockTimeDrift readHeader validateFinalizedData block.header =
        .ok () ∧
      verifyBlockParent readHeader block = .ok () ∧
      ∃ receipts, verifyBlockBody calculateTransactionsRoot calculateReceiptsRoot
        calculateUncleRoot executorProcessBlock readHeader preCommitState block = .ok receipts ∧
        fb = ⟨block, receipts⟩ := by
  unfold verifyFinalizedBlock
  cases verifyHeader headerHash now blockTimeDrift readHeader validateFinalizedData
      block.header with
  | error e => simp
  | ok u =>
    dsimp only
    cases verifyBlockParent readHeader block with
    | error e => simp
    | ok u =>
      dsimp only
      cases verifyBlockBody calculateTransactionsRoot calculateReceiptsRoot calculateUncleRoot
          executorProcessBlock readHeader preCommitState block with
      | error e => simp [Except.map]
      | ok rs => simp [Except.map, eq_comm]

theorem verifyFinalizedBlock_gasUsed {block : Block Header Transaction} {fb : FullBlock} {parent : Header}
    {br : BlockResult}
    (h : verifyFinalizedBlock headerHash now blockTimeDrift calculateTransactionsRoot
      calculateReceiptsRoot calculateUncleRoot executorProcessBlock readHeader
      validateFinalizedData preCommitState block = .ok fb)
    (hparent : readHeader block.header.parentHash = some parent)
    (hexec : executorProcessBlock parent.stateRoot block.header.blockContext block.header.miner
      block.transactions = .ok br) :
    block.header.gasUsed = br.totalGas := by
  obtain ⟨-, -, receipts, hbody, -⟩ := verifyFinalizedBlock_eq_ok.1 h
  obtain ⟨-, -, br', hexec', hresult, -⟩ := verifyBlockBody_eq_ok.1 hbody
  obtain ⟨parent', hparent', hexec'', -⟩ := executeBlockTransactions_eq_ok.1 hexec'
  obtain rfl : parent' = parent := Option.some.inj (hparent'.symm.trans hparent)
  obtain rfl : br' = br := Except.ok.inj (hexec''.symm.trans hexec)
  exact (verifyBlockResult_eq_ok.1 hresult).2.2.1.symm

theorem headerHash_congr (hhash : ∀ h x, headerHash { h with hash := x } = headerHash h)
    {h h' : Header} (heq : { h with hash := 0 } = { h' with hash := 0 }) :
    headerHash h = headerHash h' := by
  rw [← hhash h 0, heq]
  exact hhash h' 0

theorem buildBlock_withGasUsed (hhash : ∀ h x, headerHash { h with hash := x } = headerHash h)
    (header : Header) (txs : List Transaction) (receipts : List Receipt) (g : ℕ) :
    (buildBlock headerHash calculateTransactionsRoot calculateReceiptsRoot
        ({ header with gasUsed := g }.computeHash headerHash) txs receipts).header =
      { (buildBlock headerHash calculateTransactionsRoot calculateReceiptsRoot header txs
        receipts).header with gasUsed := g }.computeHash headerHash := by
  simp only [buildBlock, Header.computeHash]
  congr 1
  exact headerHash_congr hhash rfl

theorem validateHeaderFields_withGasUsed
    (hhash : ∀ h x, headerHash { h with hash := x } = headerHash h) {parent header : Header}
    (h : validateHeaderFields headerHash now blockTimeDrift parent header = .ok ()) {g : ℕ}
    (hg : g ≤ header.gasLimit) :
    validateHeaderFields headerHash now blockTimeDrift parent
      ({ header with gasUsed := g }.computeHash headerHash) = .ok () := by
  obtain ⟨h₁, h₂, h₃, h₄, h₅, -, h₇, h₈, h₉, -⟩ := validateHeaderFields_eq_ok.1 h
  exact validateHeaderFields_eq_ok.2 ⟨h₁, h₂, h₃, h₄, h₅, hg, h₇, h₈, h₉, (hhash _ _).symm⟩

variable (headerHash now blockTimeDrift calculateTransactionsRoot calculateReceiptsRoot
  calculateUncleRoot executorProcessBlock validateExtra readHeader validateFinalizedData
  preCommitState)

theorem validate_accepts_unverifiable_gasUsed
    (hhash : ∀ h x, headerHash { h with hash := x } = headerHash h)
    (parent : Header) (block : Block Header Transaction) (target : FullBlock) (br : BlockResult) (g : ℕ)
    (hval : validate headerHash now blockTimeDrift calculateTransactionsRoot calculateReceiptsRoot
      executorProcessBlock validateExtra parent block = .ok target)
    (hbuilt : target.block.header = block.header)
    (hexec : executorProcessBlock parent.stateRoot block.header.blockContext block.header.miner
      block.transactions = .ok br)
    (hparent : readHeader block.header.parentHash = some parent)
    (hg : g ≤ block.header.gasLimit) (hne : g ≠ br.totalGas) :
    let proposal : Block Header Transaction :=
      { block with header := { block.header with gasUsed := g }.computeHash headerHash }
    ∃ target', validate headerHash now blockTimeDrift calculateTransactionsRoot
        calculateReceiptsRoot executorProcessBlock validateExtra parent proposal = .ok target' ∧
      insert (some target') proposal = .ok target' ∧
      ∃ e, verifyFinalizedBlock headerHash now blockTimeDrift calculateTransactionsRoot
        calculateReceiptsRoot calculateUncleRoot executorProcessBlock readHeader
        validateFinalizedData preCommitState proposal = .error e := by
  intro proposal
  obtain ⟨hfields, hextra, hprocess⟩ := validate_eq_ok.1 hval
  obtain ⟨br', hexec', hroot, -, rfl⟩ := processBlock_eq_ok.1 hprocess
  obtain rfl : br' = br := Except.ok.inj (hexec'.symm.trans hexec)
  -- the block rebuilt from the proposal is the proposal, as the one rebuilt from `block` was
  have hrebuilt : (buildBlock headerHash calculateTransactionsRoot calculateReceiptsRoot
      proposal.header proposal.transactions br'.receipts).header = proposal.header := by
    rw [buildBlock_withGasUsed hhash, hbuilt]
  refine ⟨⟨buildBlock headerHash calculateTransactionsRoot calculateReceiptsRoot proposal.header
    proposal.transactions br'.receipts, br'.receipts⟩, ?_, ?_, ?_⟩
  · apply validate_eq_ok.2
    refine ⟨validateHeaderFields_withGasUsed hhash hfields hg, hextra, ?_⟩
    exact processBlock_eq_ok.2 ⟨br', hexec, hroot, congrArg Header.txRoot hrebuilt, rfl⟩
  · simp [insert, hrebuilt]
  · -- sync re-executes on the same parent and finds another gas used
    cases hv : verifyFinalizedBlock headerHash now blockTimeDrift calculateTransactionsRoot
        calculateReceiptsRoot calculateUncleRoot executorProcessBlock readHeader
        validateFinalizedData preCommitState proposal with
    | error e => exact ⟨e, rfl⟩
    | ok fb => exact (hne (verifyFinalizedBlock_gasUsed hv hparent hexec)).elim

/-- An empty block on a parent of hash 5, hashed by its gas used: the proposal claiming one unit of
gas is accepted by consensus and rejected by sync. -/
theorem validate_accepts_unverifiable_gasUsed_one :
    let headerHash : Header → Hash := fun h => ⟨h.gasUsed % 2 ^ 256, Nat.mod_lt _ (by positivity)⟩
    let parent : Header := ⟨0, 0, 0, 0, 0, 0, 1, 0, 100, 0, 0, [], 0, 0, 5, 0⟩
    let header : Header := ⟨5, emptyUncleHash, 0, 0, emptyRootHash, emptyRootHash, 1, 1, 100, 0, 1,
      List.replicate 32 0, polyBFTMixDigest, 0, 0, 0⟩
    let proposal : Block Header Transaction := ⟨{ header with gasUsed := 1 }.computeHash headerHash, [], []⟩
    let execute : Hash → BlockContext → Address → List Transaction → Except String BlockResult :=
      fun root _ _ _ => .ok ⟨root, [], 0⟩
    ∃ target', validate headerHash 1 0 (fun _ _ => emptyRootHash) (fun _ => emptyRootHash) execute
        (fun _ _ _ _ => .ok ()) parent proposal = .ok target' ∧
      insert (some target') proposal = .ok target' ∧
      ∃ e, verifyFinalizedBlock headerHash 1 0 (fun _ _ => emptyRootHash) (fun _ => emptyRootHash)
        (fun _ => emptyUncleHash) execute (fun x => if x = 5 then some parent else none)
        (fun _ _ => .ok ()) (fun _ _ => .ok ()) proposal = .error e := by
  intro headerHash parent header proposal execute
  exact validate_accepts_unverifiable_gasUsed headerHash 1 0 (fun _ _ => emptyRootHash)
    (fun _ => emptyRootHash) (fun _ => emptyUncleHash) execute (fun _ _ _ _ => .ok ())
    (fun x => if x = 5 then some parent else none) (fun _ _ => .ok ()) (fun _ _ => .ok ())
    (fun _ _ => rfl) parent ⟨header, [], []⟩
    ⟨buildBlock headerHash (fun _ _ => emptyRootHash) (fun _ => emptyRootHash) header [] [], []⟩
    ⟨0, [], 0⟩ 1 rfl (by decide) rfl rfl (by decide) (by decide)

end Paths

end Blade
