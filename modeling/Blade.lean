import Blade.Bitmap
import Blade.Lib.Quorum
import Blade.Lib.Word
import Blade.ValidatorMetadata
import Blade.SignerBitmap
import Blade.ValidatorSet
import Blade.StakeManager
import Blade.ValidatorsSnapshot
import Blade.SnapshotReplay
import Blade.Lib.RoundRobin
import Blade.ProposerCalculator
import Blade.ProposerUpdates
import Blade.Lib.Rlp
import Blade.Types.Transaction
import Blade.Types.RlpUnmarshal
import Blade.Types.Codec
import Blade.Types.Malleability
import Blade.Types.RlpStorage
import Blade.Crypto.TxSigner
import Blade.Bls.HashToPoint
import Blade.Lib.Lru
import Blade.State.Txn
import Blade.Lib.UndoLog
import Blade.State.AccessList
import Blade.State.AddressList
import Blade.State.CodeCache
import Blade.State.Executor
import Blade.State.Apply
import Blade.State.Journal
import Blade.State.Storage
import Blade.State.Run
import Blade.State.Gas
import Blade.Consensus.Validate
import Blade.Consensus.ExitProof
import Blade.Consensus.Governance
import Blade.Itrie.Encoding
import Blade.Evm.Jumpdest
import Blade.Evm.Memory
import Blade.Lib.Loop
import Blade.Evm.Interpreter
import Blade.Evm.Run
import Blade.Evm.Keeps
import Blade.Evm.Steps
import Blade.Evm.Table
import Blade.Evm.Runs
import Blade.Evm.Host
import Blade.Blockchain.Storage
import Blade.Blockchain.Chain
import Blade.Blockchain.Canonical
import Blade.Blockchain.BaseFee
