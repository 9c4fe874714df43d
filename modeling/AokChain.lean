import AokChain.Governance.Store
import AokChain.Governance.Entries
import AokChain.Governance.Basic
import AokChain.Governance.Revert
import AokChain.Governance.Readers
import AokChain.Tokens.LruCache
import AokChain.Tokens.LruRefinement
import AokChain.Tokens.Serialize
import AokChain.Pow.ArithUint256
import AokChain.Pow.Retarget
import AokChain.Pow.RetargetOverflow
import AokChain.Script.Script
import AokChain.Script.Standard
import AokChain.Script.Destination
import AokChain.Script.Solutions
import AokChain.Script.Multisig
import AokChain.Script.IsMine
import AokChain.Miner.Mempool
import AokChain.Miner.Assembler
import AokChain.Miner.Package
import AokChain.Miner.Loop
import AokChain.Miner.Template
import AokChain.Miner.Termination
import AokChain.Miner.Invariant
import AokChain.Miner.Search
import AokChain.Miner.ExtraNonce
import AokChain.Miner.CreateNewBlock
import AokChain.Primitives.Transaction
import AokChain.Qt.Units
import AokChain.Qt.TransactionRecord
import AokChain.Qt.TransactionStatus
import AokChain.Rpc.ListMyTokens
