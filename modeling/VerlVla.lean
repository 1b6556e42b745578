import VerlVla.BatchedLikelihoods
import VerlVla.ObsStore
import VerlVla.RecapAnnotations
import VerlVla.RecapReturns
import VerlVla.TransitionWindows
import VerlVla.ResetStatePlanner
import VerlVla.NativeScores
import VerlVla.SmoothedPlans
import VerlVla.EvalAgreement
import VerlVla.SharedTheta
import VerlVla.FlowGrpoReferences
import VerlVla.EpisodeAdvantages
import VerlVla.LayoutRotation
import VerlVla.SelectionOrder
import VerlVla.SplitMonitor
import VerlVla.CollectorAbandonment
import VerlVla.SftTraining
import VerlVla.CollectionRestart
import VerlVla.AsyncSnapshot
import VerlVla.EpisodeAgreement
import VerlVla.SamplingLaw
import VerlVla.RestartStream
import VerlVla.SimulatorAnswers
import VerlVla.ResetTransparency
import VerlVla.ExchangeReturns
import VerlVla.CommandRuns
import VerlVla.EpisodeAccounting
import VerlVla.SemiMdpFolding
import VerlVla.LaneProvenance
import VerlVla.EpisodeIdentity
import VerlVla.EpisodeSplices
import VerlVla.ModeBoundary
import VerlVla.BrokerProgress
import VerlVla.TrainingData
import VerlVla.MergeRecovery
import VerlVla.FpoDivergence
import VerlVla.TrainingOnce
import VerlVla.EvalCompletion
import VerlVla.ExecutedSlots
import VerlVla.GradientCoherence
import VerlVla.Flattening
import VerlVla.TaskSpaceRotations
import VerlVla.ReplayFiles
import VerlVla.EvalQuotas
import VerlVla.PiperTeleop
