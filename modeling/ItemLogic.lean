import ItemLogic.Gate.Formula
import ItemLogic.Gate.Lemmas
import ItemLogic.Main
import ItemLogic.Notice
import ItemLogic.Proofs.ChainWalk
import ItemLogic.Proofs.Ascent
import ItemLogic.Proofs.Grants
import ItemLogic.Proofs.Closure
import ItemLogic.History
import ItemLogic.Proofs.Coherence
import ItemLogic.Proofs.Play
import ItemLogic.Proofs.Completion
import ItemLogic.Proofs.Provenance
import ItemLogic.Proofs.Waves
import ItemLogic.Proofs.Layers
import ItemLogic.Proofs.FormulaReading
import ItemLogic.Call
import ItemLogic.Proofs.Placing
import ItemLogic.Proofs.Calls
import ItemLogic.Proofs.Alike
import ItemLogic.Proofs.WorldKeys
import ItemLogic.Proofs.FilledWorld
import ItemLogic.Proofs.Reload
import ItemLogic.Proofs.Application
import ItemLogic.Proofs.SavedSession
import ItemLogic.Proofs.GasRule
import ItemLogic.Proofs.Wiring
import ItemLogic.Proofs.GasOption
import ItemLogic.Proofs.RingOption
import ItemLogic.Proofs.Ways
import ItemLogic.Proofs.Resumption
import ItemLogic.Proofs.AddedGroups
import ItemLogic.Proofs.WholeWorld
import ItemLogic.Proofs.Reordering
import ItemLogic.Proofs.StoredForms
import ItemLogic.Proofs.SetText
import ItemLogic.Proofs.ReachableCommand
import ItemLogic.Proofs.Overwriting
import ItemLogic.Proofs.Growth
import ItemLogic.Proofs.Termination
import ItemLogic.Proofs.MinimalClauses
import ItemLogic.Proofs.SetReading
import ItemLogic.Proofs.KeyText
import ItemLogic.Proofs.SeedText
import ItemLogic.Proofs.ChainInUse
import ItemLogic.Proofs.Words
import ItemLogic.Json.Texts
import ItemLogic.Proofs.PlacementText
