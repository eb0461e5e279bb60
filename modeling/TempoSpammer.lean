import TempoSpammer.Web3
import TempoSpammer.Float
import TempoSpammer.Pipeline
import TempoSpammer.Activities
import TempoSpammer.Smart
import TempoSpammer.Faucet
import TempoSpammer.Balances
import TempoSpammer.Decision
import TempoSpammer.Recovery
import TempoSpammer.Trace
import TempoSpammer.Liquidity
import TempoSpammer.Selection
import TempoSpammer.Sweep
import TempoSpammer.Outcomes
import TempoSpammer.History
import TempoSpammer.SendSites
import TempoSpammer.Nonces
import TempoSpammer.Allowances
import TempoSpammer.CreatedTokens
import TempoSpammer.Signers
import TempoSpammer.SelectionEcho
import TempoSpammer.Slippage
import TempoSpammer.Beneficiaries
import TempoSpammer.Budget
