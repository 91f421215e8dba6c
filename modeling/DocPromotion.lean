import DocPromotion.Main
import DocPromotion.Proofs.Commutation
import DocPromotion.Proofs.FixedPoint
import DocPromotion.Proofs.GrammarCompleteness
import DocPromotion.Proofs.RemovedTags
import DocPromotion.Source.Workspace
import DocPromotion.Proofs.Refusals
import DocPromotion.Proofs.Notifications
import DocPromotion.Proofs.Walk
import DocPromotion.Proofs.LastSetting
import DocPromotion.Proofs.FirstFault
import DocPromotion.Proofs.OwnSpelling
import DocPromotion.Proofs.SequentialRuns
import DocPromotion.Proofs.SecondRun
import DocPromotion.Proofs.Ancestors
import DocPromotion.Proofs.Redundancy
import DocPromotion.Proofs.SameTokens
import DocPromotion.Proofs.Trimming
import DocPromotion.Proofs.Composition
import DocPromotion.Proofs.Spacing
import DocPromotion.Proofs.LetterCase
import DocPromotion.Proofs.Traces
import DocPromotion.Proofs.Lexing
import DocPromotion.Proofs.ClosingBracket
import DocPromotion.Proofs.Boundaries
