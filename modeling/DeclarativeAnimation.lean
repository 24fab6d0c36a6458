import DeclarativeAnimation.Chain
import DeclarativeAnimation.Factory
import DeclarativeAnimation.Json.Reader
import DeclarativeAnimation.Markup.Compiler
import DeclarativeAnimation.Quality
import DeclarativeAnimation.Settings
import DeclarativeAnimation.State.Evaluation
import DeclarativeAnimation.Playback.Command
import DeclarativeAnimation.Playback.FrameQueue
import DeclarativeAnimation.Playback.Player
import DeclarativeAnimation.Service
import DeclarativeAnimation.Client
import DeclarativeAnimation.Launch
import DeclarativeAnimation.CommandLine.Invocation
import DeclarativeAnimation.CommandLine.Execution
import DeclarativeAnimation.Main
import DeclarativeAnimation.Proofs.Number.Exact
import DeclarativeAnimation.Proofs.Number.Rounding
import DeclarativeAnimation.Proofs.Number.Range
import DeclarativeAnimation.Proofs.Number.Magnitude
import DeclarativeAnimation.Proofs.Outcome
import DeclarativeAnimation.Proofs.Animation.Authored
import DeclarativeAnimation.Proofs.Playback.Clock
import DeclarativeAnimation.Proofs.Playback.FrameLoop
import DeclarativeAnimation.Proofs.Timing.CurveRange
import DeclarativeAnimation.Proofs.Timing.KeyTimes
import DeclarativeAnimation.Proofs.Interpolation.KeyedSegments
import DeclarativeAnimation.Proofs.Markup.Reader
import DeclarativeAnimation.Proofs.Number.Numeral
import DeclarativeAnimation.Proofs.Markup.ReadAttributes
import DeclarativeAnimation.Proofs.Markup.RestoredTiming
import DeclarativeAnimation.Proofs.Markup.CarriedTiming
import DeclarativeAnimation.Proofs.Timing.ProgressRange
import DeclarativeAnimation.Proofs.Timing.EasedRange
import DeclarativeAnimation.Proofs.Interpolation.KeyframeRange
import DeclarativeAnimation.Proofs.Interpolation.ContributionRange
import DeclarativeAnimation.Proofs.State.EvaluationRange
import DeclarativeAnimation.Proofs.State.SignlessZeros
import DeclarativeAnimation.Proofs.State.StateRange
import DeclarativeAnimation.Proofs.Markup.RoundedText
import DeclarativeAnimation.Proofs.Markup.CompleteMarkup
import DeclarativeAnimation.Proofs.Markup.BatchIsolation
import DeclarativeAnimation.Proofs.Markup.MandatoryParts
import DeclarativeAnimation.Proofs.Markup.EmittedKeyframes
import DeclarativeAnimation.Proofs.Markup.OneElement
import DeclarativeAnimation.Proofs.Value.Grouping
import DeclarativeAnimation.Proofs.Value.Names
import DeclarativeAnimation.Proofs.State.Locality
import DeclarativeAnimation.Proofs.Playback.Telling
import DeclarativeAnimation.Proofs.Playback.Preview
import DeclarativeAnimation.Proofs.Playback.Beat
import DeclarativeAnimation.Proofs.Playback.LateFrames
import DeclarativeAnimation.Proofs.Playback.Throttle
import DeclarativeAnimation.Proofs.Playback.Delivery
import DeclarativeAnimation.Proofs.Playback.FailedCalls
import DeclarativeAnimation.Proofs.Playback.Reach
import DeclarativeAnimation.Proofs.Playback.Resumption
import DeclarativeAnimation.Proofs.Playback.Disposal
import DeclarativeAnimation.Proofs.Playback.Cadence
import DeclarativeAnimation.Proofs.Playback.Roster
import DeclarativeAnimation.Proofs.Playback.Isolation
import DeclarativeAnimation.Proofs.Number.Elapsed
import DeclarativeAnimation.Proofs.Service.SettingsChanges
import DeclarativeAnimation.Proofs.Animation.RoundTrip
import DeclarativeAnimation.Proofs.Markup.WrittenSources
import DeclarativeAnimation.Proofs.Markup.ObjectBatches
import DeclarativeAnimation.Proofs.Markup.TargetGroups
import DeclarativeAnimation.Proofs.Timing.ExactTimes
import DeclarativeAnimation.Proofs.Chain.ShiftedBegin
import DeclarativeAnimation.Proofs.Chain.Translation
import DeclarativeAnimation.Proofs.Chain.BackToBack
import DeclarativeAnimation.Proofs.State.AfterEnd
import DeclarativeAnimation.Proofs.Service.ReadingFaults
import DeclarativeAnimation.Proofs.Service.RejectedBodies
import DeclarativeAnimation.Proofs.Timing.CurveInversion
import DeclarativeAnimation.Proofs.Timing.Phases
import DeclarativeAnimation.Proofs.Interpolation.PacedTravel
import DeclarativeAnimation.Proofs.Interpolation.Literal
import DeclarativeAnimation.Proofs.Interpolation.StillKeyframes
import DeclarativeAnimation.Proofs.State.FrozenEnd
import DeclarativeAnimation.Proofs.Number.Reordering
import DeclarativeAnimation.Proofs.State.Moves
import DeclarativeAnimation.Proofs.State.ContributionKeys
import DeclarativeAnimation.Proofs.State.Composition
import DeclarativeAnimation.Proofs.Markup.SetWindow
import DeclarativeAnimation.Proofs.Number.Positional
import DeclarativeAnimation.Proofs.Number.Spelling
import DeclarativeAnimation.Proofs.Number.Conversion
import DeclarativeAnimation.Proofs.Number.DecimalSteps
import DeclarativeAnimation.Proofs.Markup.RoundedNumber
import DeclarativeAnimation.Proofs.Markup.FormattedValues
import DeclarativeAnimation.Proofs.Markup.FormattedKeyframes
import DeclarativeAnimation.Proofs.Markup.PathData
import DeclarativeAnimation.Proofs.Markup.RoundedPath
import DeclarativeAnimation.Proofs.Chain.LatestFinish
import DeclarativeAnimation.Proofs.Markup.KeyframeLists
import DeclarativeAnimation.Proofs.Animation.SkippedEntries
import DeclarativeAnimation.Proofs.Timing.ClockGrammar
import DeclarativeAnimation.Proofs.Number.NearestMultiple
import DeclarativeAnimation.Proofs.Markup.CanonicalNumber
import DeclarativeAnimation.Proofs.Interpolation.DiscreteSteps
import DeclarativeAnimation.Proofs.Interpolation.ColorKeyframes
import DeclarativeAnimation.Proofs.State.AccumulatedLine
import DeclarativeAnimation.Proofs.Playback.SharedFrames
import DeclarativeAnimation.Proofs.Playback.PlayerFrames
import DeclarativeAnimation.Proofs.Number.SignificantDigits
import DeclarativeAnimation.Proofs.Animation.AskedDuration
