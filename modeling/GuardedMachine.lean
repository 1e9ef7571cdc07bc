import GuardedMachine.Renaming
import GuardedMachine.Script.LateBinding
import GuardedMachine.Script.Listing
import GuardedMachine.Script.Outline
import GuardedMachine.Proofs.Drafts
import GuardedMachine.Proofs.Outline
import GuardedMachine.Proofs.Linking
import GuardedMachine.Proofs.Building
import GuardedMachine.Proofs.Safety
import GuardedMachine.Proofs.LateBinding
import GuardedMachine.Live
import GuardedMachine.Proofs.Answers
import GuardedMachine.Proofs.Live
import GuardedMachine.Firing
import GuardedMachine.Proofs.Firing
import GuardedMachine.Proofs.Trail
import GuardedMachine.Proofs.Path
import GuardedMachine.Report
import GuardedMachine.Untimed
import GuardedMachine.Proofs.Abreast
import GuardedMachine.Proofs.Replay
import GuardedMachine.Agreement
import GuardedMachine.Proofs.Agreement
import GuardedMachine.Proofs.Listing
import GuardedMachine.Proofs.Journal
import GuardedMachine.Proofs.Composition
import GuardedMachine.Proofs.Shadowing
import GuardedMachine.Proofs.Restarting
import GuardedMachine.Proofs.Retention
import GuardedMachine.Proofs.RenamedParts
import GuardedMachine.Proofs.RenamedScripts
import GuardedMachine.Proofs.Renaming
import GuardedMachine.Proofs.Declarations
import GuardedMachine.Proofs.Dispatch
import GuardedMachine.Proofs.Counting
import GuardedMachine.Exclusion
import GuardedMachine.Proofs.Exclusion
import GuardedMachine.Proofs.Misuses
import GuardedMachine.Proofs.Declaring
import GuardedMachine.Proofs.Recording
import GuardedMachine.Proofs.Cursor
import GuardedMachine.Proofs.Warnings
import GuardedMachine.Access
import GuardedMachine.Proofs.Access
import GuardedMachine.Proofs.Timing
