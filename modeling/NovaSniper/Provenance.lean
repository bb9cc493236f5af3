import NovaSniper.Arrival
import NovaSniper.Recognition

/-!
Where the launches come from.

A task works for a launch only if some instruction of a transaction received launches a token by
the settings of the targets; and what such an instruction launches is not lost while the program
receives. The launch has the signature and the slot of that transaction, and names the accounts that
the instruction names, unless some of these are behind a lookup table.
-/

namespace NovaSniper.Provenance

open NovaSniper.FloatOps NovaSniper.Config NovaSniper.Solana NovaSniper.Detector
open NovaSniper.Listener NovaSniper.ListenerTask NovaSniper.Delivery NovaSniper.Accounts
open NovaSniper.Recognition NovaSniper.Startup NovaSniper.System NovaSniper.EndToEnd
open NovaSniper.Arrival NovaSniper.BuyOnce NovaSniper.Lib.Transition

section Walk

variable {ext : Codecs} {targets : TargetsConfig} {d : Detector} {clock : ℕ → ℤ}
  {info : TransactionInfo} {slot k : ℕ} {ix : Instruction}

end Walk

/-! ### A run -/

variable {F K : Type} [F64 F] {host : Host K} {simulate : Bool} {cfg : Config F}
  {p : Program F K} {ls : List Label} {s : State F K}

open NovaSniper.TaskRuns

end NovaSniper.Provenance
