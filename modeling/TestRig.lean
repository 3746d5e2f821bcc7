import TestRig.Main
import TestRig.Phase.Waiting
import TestRig.Script.Behaviour
import TestRig.Proofs.OverrideChain
import TestRig.Proofs.ObjectionWait
import TestRig.Proofs.Standstill
import TestRig.Proofs.Stride
import TestRig.Proofs.Calls
import TestRig.Proofs.LiveContexts
import TestRig.Proofs.RunFrame
import TestRig.Proofs.Trace
import TestRig.Proofs.Itinerary
import TestRig.Proofs.Cleanup
import TestRig.Proofs.Abort
import TestRig.Proofs.Deadlock
import TestRig.Proofs.ContextAccounts
import TestRig.Proofs.ContextTasks
import TestRig.Proofs.RunsInARow
import TestRig.Proofs.Registry
import TestRig.Proofs.Registration
import TestRig.Proofs.RegistrationTime
import TestRig.Proofs.Requests
import TestRig.Proofs.RecordKeeping
import TestRig.Proofs.TypeKeys
import TestRig.Proofs.GlobRules
import TestRig.Proofs.QuietLookups
import TestRig.Proofs.TypeTable
import TestRig.Proofs.FilingAgain
import TestRig.Proofs.RegisteringAgain
import TestRig.Proofs.ResolvingAgain
import TestRig.Proofs.ListedRules
import TestRig.Proofs.DescribedTypes
import TestRig.Proofs.Explanations
import TestRig.Proofs.FullNames
import TestRig.Proofs.TreeTables
import TestRig.Proofs.Creation
import TestRig.Proofs.Broadcasts
import TestRig.Proofs.Subtrees
import TestRig.Proofs.VisitOrder
import TestRig.Proofs.GraphTables
import TestRig.Proofs.RefusedMoves
import TestRig.Proofs.StraightSchedules
import TestRig.Proofs.SyncedPhases
import TestRig.Proofs.ObjectionCounts
import TestRig.Proofs.WrittenConfigs
import TestRig.Proofs.OverrideLines
import TestRig.Proofs.MergedOverrides
import TestRig.Proofs.BesideRun
import TestRig.Proofs.Wakeups
import TestRig.Proofs.GlobWildcards
import TestRig.Proofs.Columns
import TestRig.Proofs.BenchTurns
