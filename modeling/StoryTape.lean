import StoryTape.Main
import StoryTape.Proofs.TagText
import StoryTape.Proofs.WorldContents
import StoryTape.Proofs.NetEffect
import StoryTape.Proofs.Acceptance
import StoryTape.Proofs.Truthful
import StoryTape.Proofs.LineKeys
import StoryTape.Proofs.RuleExpansion
import StoryTape.Proofs.Turn
import StoryTape.Proofs.CleanTape
import StoryTape.Proofs.Rounds
import StoryTape.Proofs.TagExpansion
import StoryTape.Proofs.ExpansionEnds
import StoryTape.Proofs.PlainPool
import StoryTape.Proofs.RulebookEnds
import StoryTape.Proofs.AscendingLists
import StoryTape.Proofs.StoredLines
import StoryTape.Proofs.CompiledTapes
import StoryTape.Proofs.Places
import StoryTape.Proofs.Histories
import StoryTape.Proofs.Playable
import StoryTape.Proofs.Standing
import StoryTape.Proofs.PaidGains
import StoryTape.Proofs.Shapes
import StoryTape.Proofs.JsonRoundTrip
import StoryTape.Proofs.RonWords
import StoryTape.Proofs.RonRoundTrip
import StoryTape.Proofs.Pieces
import StoryTape.Proofs.TapeData
import StoryTape.Proofs.Codecs
import StoryTape.Proofs.WrittenFiles
import StoryTape.Proofs.ArtifactFiles
import StoryTape.Proofs.Lossless
import StoryTape.Proofs.SmallRules
import StoryTape.Proofs.CompilationSteps
import StoryTape.Proofs.JoinedScripts
import StoryTape.Proofs.InertLines
import StoryTape.Proofs.Dialogues
import StoryTape.Proofs.NamedGrowth
import StoryTape.Proofs.GivenKeys
import StoryTape.Proofs.TurnHistory
import StoryTape.Proofs.CounterTags
import StoryTape.Proofs.NamedCounters
import StoryTape.Proofs.CounterPlaces
import StoryTape.Proofs.SequencePositions
import StoryTape.Proofs.KeptTexts
import StoryTape.Proofs.DialogueLines
import StoryTape.Proofs.DialogueRecords
import StoryTape.Proofs.ShownDialogue
import StoryTape.Proofs.Verdicts
import StoryTape.Proofs.ContextPlaces
import StoryTape.Proofs.CapturedLines
import StoryTape.Proofs.Chapters
import StoryTape.Proofs.SetChoices
import StoryTape.Proofs.Gotos
import StoryTape.Proofs.ComposedTags
import StoryTape.Proofs.Wildcards
import StoryTape.Proofs.MovedLevels
import StoryTape.Proofs.RuleHeads
import StoryTape.Proofs.OfferedChoices
import StoryTape.Proofs.NumberedChoices
import StoryTape.Proofs.DeadEnds
import StoryTape.Proofs.ActionLabels
import StoryTape.Proofs.WildcardCuts
import StoryTape.Proofs.WrittenWorlds
import StoryTape.Proofs.LiteralTags
import StoryTape.Proofs.Exchanges
import StoryTape.Proofs.Counting
import StoryTape.Proofs.WorldShape
import StoryTape.Proofs.TapeLabels
import StoryTape.Proofs.TextLines
import StoryTape.Proofs.BlamedLines
import StoryTape.Proofs.ByteOrder
import StoryTape.Proofs.Searches
import StoryTape.Proofs.CanonicalSets
import StoryTape.Proofs.CutTexts
import StoryTape.Proofs.LineForms
import StoryTape.Proofs.StoreHistories
