import WagmiBench.Agents.Completion
import WagmiBench.Agents.Lanes
import WagmiBench.Core.ActionLanguage
import WagmiBench.Core.Costs
import WagmiBench.Core.Engine.Attribution
import WagmiBench.Core.Engine.Evidence
import WagmiBench.Core.Engine.FillNav
import WagmiBench.Core.Engine.Funding
import WagmiBench.Core.Engine.KillSwitch
import WagmiBench.Core.Engine.Observed
import WagmiBench.Core.Engine.Slippage
import WagmiBench.Core.Engine.Position
import WagmiBench.Core.Engine.Replies
import WagmiBench.Core.Engine.Restated
import WagmiBench.Core.Engine.Solvency
import WagmiBench.Core.Engine.Stress
import WagmiBench.Core.Engine.Verdict
import WagmiBench.Core.Liquidation
import WagmiBench.Core.SquareRoots
import WagmiBench.Data.Clocks
import WagmiBench.Data.Download
import WagmiBench.Data.Quantisation
import WagmiBench.Recorder.Sealed
import WagmiBench.Report.Score
import WagmiBench.Spec.ChainFaults
import WagmiBench.Sandbox.EgressEvidence
import WagmiBench.Sandbox.Gateway.Fragmentation
import WagmiBench.Sandbox.Guard.BlockCollector
import WagmiBench.Sandbox.Ingestion
import WagmiBench.Sandbox.Isolation.Life
import WagmiBench.Spec.PythonValue
import WagmiBench.Tools.ReferenceMatrix.Spend
import WagmiBench.Harness.HiddenCredential
import WagmiBench.Lib.Interleaving
