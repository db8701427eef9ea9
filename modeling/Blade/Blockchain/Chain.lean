import Blade.Blockchain.Storage

/-!
The canonical chain of `blockchain/blockchain.go`. `writeHeaderImpl` adds a header as the new
head when its parent is the head, through `handleReorg` when it makes a heavier chain, and as a
fork otherwise; `WriteHeadersWithBodies` runs it over a batch of headers, each in its own
writer. The store is `Storage.Db`. The header and difficulty caches hold what the store holds
and are left out. `ComputeHash` is the parameter `headerHash`.

`handleReorg` walks back from the old head and from the new header to their common ancestor in
three loops, and collects the headers of the new side only in the second one, where the new
side is above the old head. A `readHeader` that fails in these loops leaves the header `nil`,
and the error message dereferences it: a run-time panic.
-/

open Blade.Lib Blade.Lib.Rlp Blade.Types Blade.Storage

namespace Blade

structure Blockchain where
  db : Db
  currentHeader : Types.Header
  currentDifficulty : ℕ

namespace Blockchain

inductive EventType
  | head
  | reorg
  | fork
  deriving DecidableEq, Repr

structure Event where
  oldChain : List Types.Header
  newChain : List Types.Header
  difficulty : Option ℕ
  type : EventType

namespace Event

/-- `&Event{}`: the zero `EventType` is `EventHead`. -/
def empty : Event := ⟨[], [], none, .head⟩

def addNewHeader (e : Event) (h : Types.Header) : Event := { e with newChain := e.newChain ++ [h] }

def addOldHeader (e : Event) (h : Types.Header) : Event := { e with oldChain := e.oldChain ++ [h] }

end Event

/-- How a write ends besides succeeding: the errors of the source, a run-time panic, and the
end of the fuel of the model's walks. -/
inductive ChainError
  | parentNotFound (hash : Hash) (number : UInt64)
  | headerDifficultyNotFound
  | readForks (e : Storage.Error)
  | nilDereference
  | sliceBoundsOutOfRange
  | outOfFuel
  | emptyHeaders
  | numberSequence (i : ℕ) (number previous : UInt64)
  | parentHashMismatch
  deriving DecidableEq, Repr

variable (rlp : RlpOps) (headerHash : Types.Header → Hash) (bc : Blockchain)

/-- `readHeader`: the block number from the lookup table, then the header. -/
def readHeader (hash : Hash) : Option Types.Header :=
  match readBlockLookup bc.db hash with
  | .ok n =>
    match Storage.readHeader rlp bc.db n hash with
    | .ok h => some h
    | .error _ => none
  | .error _ => none

def readTotalDifficulty (hash : Hash) : Option ℕ :=
  match readBlockLookup bc.db hash with
  | .ok n => Storage.readTotalDifficulty bc.db n hash
  | .error _ => none

/-- `getForksToWrite`: the stored forks but the header's parent, then the header. -/
def getForksToWrite (header : Types.Header) : Except ChainError (List Hash) := do
  let forks ← match readForks rlp bc.db with
    | .ok forks => pure forks
    | .error .notFound => pure []
    | .error e => throw (.readForks e)
  pure (forks.filter (· ≠ header.parentHash) ++ [headerHash header])

/-- The first loop of `handleReorg`: the old side walks back while it is above the new
header, collecting the parents it reads. -/
def walkOld (newHeader : Types.Header) : ℕ → Types.Header → List Types.Header → Except ChainError (Types.Header × List Types.Header)
  | 0, _, _ => .error .outOfFuel
  | fuel + 1, oldHeader, oldChain =>
    if newHeader.number < oldHeader.number then
      match bc.readHeader rlp oldHeader.parentHash with
      | some p => walkOld newHeader fuel p (oldChain ++ [p])
      | none => .error .nilDereference
    else .ok (oldHeader, oldChain)

/-- The second loop: the new side walks back while it is above the old side. -/
def walkNew (oldHeader : Types.Header) : ℕ → Types.Header → List Types.Header → Except ChainError (Types.Header × List Types.Header)
  | 0, _, _ => .error .outOfFuel
  | fuel + 1, newHeader, newChain =>
    if oldHeader.number < newHeader.number then
      match bc.readHeader rlp newHeader.parentHash with
      | some p => walkNew oldHeader fuel p (newChain ++ [p])
      | none => .error .nilDereference
    else .ok (newHeader, newChain)

/-- The third loop: both sides walk back until they meet; only the old side's headers are
collected. -/
def walkBoth : ℕ → Types.Header → Types.Header → List Types.Header → Except ChainError (Types.Header × Types.Header × List Types.Header)
  | 0, _, _, _ => .error .outOfFuel
  | fuel + 1, oldHeader, newHeader, oldChain =>
    if headerHash oldHeader ≠ headerHash newHeader then
      match bc.readHeader rlp oldHeader.parentHash with
      | none => .error .nilDereference
      | some o =>
        match bc.readHeader rlp newHeader.parentHash with
        | none => .error .nilDereference
        | some n => walkBoth fuel o n (oldChain ++ [o])
    else .ok (oldHeader, newHeader, oldChain)

/-- The fuel of the walks: each of them steps back at most once per height of the two heads. -/
def reorgFuel (oldHeader newHeader : Types.Header) : ℕ := oldHeader.number.toNat + newHeader.number.toNat + 2

def handleReorg (w : Writer) (evnt : Event) (oldHeader newHeader : Types.Header) (newTD : ℕ) :
    Except ChainError (Writer × Event) := do
  let fuel := reorgFuel oldHeader newHeader
  let (old, oldChain) ← bc.walkOld rlp newHeader fuel oldHeader []
  let (new, newChain) ← bc.walkNew rlp old fuel newHeader []
  let (_, _, oldChain) ← bc.walkBoth rlp headerHash fuel old new oldChain
  let forks ← bc.getForksToWrite rlp headerHash oldHeader
  let w := w.putForks rlp forks
  -- update canonical chain numbers
  let w := newChain.foldl (fun w h => w.putCanonicalHash h.number (headerHash h)) w
  -- `oldChain[:len(oldChain)-1]`
  if oldChain = [] then throw .sliceBoundsOutOfRange
  let evnt := oldChain.dropLast.foldl Event.addOldHeader evnt
  let evnt := evnt.addOldHeader oldHeader
  let evnt := evnt.addNewHeader newHeader
  let evnt := newChain.foldl Event.addNewHeader evnt
  pure (w, { evnt with type := .reorg, difficulty := some newTD })

/-- `writeHeaderImpl`: whether the header is canonical, the new total difficulty when it is,
and the writer and event as it leaves them. -/
def writeHeaderImpl (w : Writer) (evnt : Event) (header : Types.Header) :
    Except ChainError (Bool × Option ℕ × Writer × Event) := do
  let some parentTD := bc.readTotalDifficulty header.parentHash
    | throw (.parentNotFound (headerHash header) header.number)
  let currentHeader := bc.currentHeader
  let incomingTD := parentTD + header.difficulty.toNat
  -- the parent of the new header is the current header: it is the new head
  if header.parentHash = headerHash currentHeader then
    let w := w.putCanonicalHeader rlp header (headerHash header) incomingTD
    let evnt := { evnt with type := .head }
    let evnt := evnt.addNewHeader header
    return (true, some incomingTD, w, { evnt with difficulty := some incomingTD })
  let some currentTD := bc.readTotalDifficulty (headerHash currentHeader)
    | throw .headerDifficultyNotFound
  if currentTD < incomingTD then
    -- the new header makes a heavier chain: reorganize
    let (w, evnt) ← bc.handleReorg rlp headerHash w evnt currentHeader header incomingTD
    return (true, some incomingTD, w.putCanonicalHeader rlp header (headerHash header) incomingTD,
      evnt)
  let forks ← bc.getForksToWrite rlp headerHash header
  let w := w.putHeader rlp header (headerHash header)
  let w := w.putTotalDifficulty header.number (headerHash header) incomingTD
  let w := w.putForks rlp forks
  let w := w.putBlockLookup (headerHash header) header.number
  let evnt := evnt.addOldHeader header
  return (false, none, w, { evnt with type := .fork })

/-- `writeBatchAndUpdate`: the batch goes to the store, and a canonical header becomes the
current header. -/
def writeBatchAndUpdate (w : Writer) (header : Types.Header) (newTD : Option ℕ) (isCanonical : Bool) :
    Blockchain :=
  if isCanonical then ⟨w.writeBatch bc.db, header, newTD.getD 0⟩
  else { bc with db := w.writeBatch bc.db }

/-- One header of `WriteHeadersWithBodies`, in a writer and an event of its own. -/
def writeHeader (header : Types.Header) : Except ChainError (Blockchain × Event) := do
  let (isCanonical, newTD, w, evnt) ← bc.writeHeaderImpl rlp headerHash Writer.empty Event.empty header
  pure (bc.writeBatchAndUpdate w header newTD isCanonical, evnt)

/-- The loop of `WriteHeadersWithBodies` that writes the headers. -/
def writeHeaders : Blockchain → List Types.Header → Except ChainError (Blockchain × List Event)
  | chain, [] => .ok (chain, [])
  | chain, header :: rest => do
    let (chain', evnt) ← chain.writeHeader rlp headerHash header
    let (chain'', evnts) ← writeHeaders chain' rest
    pure (chain'', evnt :: evnts)

/-- The checks of `WriteHeadersWithBodies`: consecutive numbers and parent hashes. -/
def checkSequence : ℕ → Types.Header → List Types.Header → Except ChainError Unit
  | _, _, [] => .ok ()
  | i, prev, h :: rest =>
    if h.number - 1 ≠ prev.number then .error (.numberSequence i h.number prev.number)
    else if h.parentHash ≠ headerHash prev then .error .parentHashMismatch
    else checkSequence (i + 1) h rest

def writeHeadersWithBodies (headers : List Types.Header) :
    Except ChainError (Blockchain × List Event) :=
  match headers with
  | [] => .error .emptyHeaders
  | h :: rest =>
    (checkSequence headerHash 1 h rest).bind fun _ => writeHeaders rlp headerHash bc headers

def writeGenesisImpl (db : Db) (header : Types.Header) : Blockchain :=
  let w := Writer.empty.putCanonicalHeader rlp header (headerHash header) header.difficulty.toNat
  ⟨w.writeBatch db, header, header.difficulty.toNat⟩

end Blockchain

end Blade
