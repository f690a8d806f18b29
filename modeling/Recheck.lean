import Recheck.Main
import Recheck.Proofs.Dispatch.ForcedRuns
import Recheck.Proofs.Pool.Crashes
import Recheck.Proofs.Pool.Undisturbed
import Recheck.Proofs.Dispatch.Courses
import Recheck.Proofs.Dispatch.Forcing
import Recheck.Proofs.Dispatch.Replays
import Recheck.Proofs.Dispatch.Answers
import Recheck.Proofs.Dispatch.Reruns
import Recheck.Proofs.Dispatch.Footprints
import Recheck.Proofs.Pool.Returning
import Recheck.Proofs.Dispatch.FailingSinks
import Recheck.Proofs.Dispatch.LatestOnly
import Recheck.Proofs.Text.Words
import Recheck.Proofs.Preparation.Readings
import Recheck.Proofs.Preparation.Failures
import Recheck.Proofs.Dispatch.DamagedRecords
import Recheck.Proofs.Preparation.SourceLists
import Recheck.Proofs.Cache.OptionChanges
import Recheck.Proofs.Dispatch.LineStarts
import Recheck.Proofs.Cache.OptionSequences
import Recheck.Proofs.Dispatch.FirstFaults
import Recheck.Proofs.Cache.Separation
import Recheck.Proofs.Sdk.Versions
import Recheck.Proofs.Dispatch.Endings
import Recheck.Proofs.Text.FilterLines
