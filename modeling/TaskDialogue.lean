import TaskDialogue.Syntax.Encoding
import TaskDialogue.Exec.Executor
import TaskDialogue.Transcript.Conversation
import TaskDialogue.Domain.Build
import TaskDialogue.Settings.Config
import TaskDialogue.Cli.Run
import TaskDialogue.Main
import TaskDialogue.Proofs.Conversation.Inputs
import TaskDialogue.Proofs.Conversation.Replay
import TaskDialogue.Proofs.Store.References
import TaskDialogue.Proofs.Success
import TaskDialogue.Proofs.Store.Writes
import TaskDialogue.Proofs.Store.Closure
import TaskDialogue.Proofs.Store.Accessors
import TaskDialogue.Proofs.Turn.Evaluation
import TaskDialogue.Proofs.Turn.Classification
import TaskDialogue.Proofs.Turn.Closure
import TaskDialogue.Proofs.Turn.Allocation
import TaskDialogue.Proofs.Turn.Assignment
import TaskDialogue.Proofs.Store.Checked
import TaskDialogue.Proofs.Turn.Checked
import TaskDialogue.Proofs.Turn.Session
import TaskDialogue.Proofs.Turn.Protocol
import TaskDialogue.Proofs.Turn.Effects
import TaskDialogue.Proofs.Conversation.Completion
import TaskDialogue.Proofs.Syntax.FollowMarker
import TaskDialogue.Proofs.Syntax.Phrases
import TaskDialogue.Proofs.Syntax.HintText
import TaskDialogue.Proofs.Task.Registry
import TaskDialogue.Proofs.Conversation.HintTurn
import TaskDialogue.Proofs.Conversation.Recommendation
import TaskDialogue.Proofs.Task.Asks
import TaskDialogue.Proofs.Store.Resolution
import TaskDialogue.Proofs.Turn.Advance
import TaskDialogue.Proofs.Turn.Outcome
import TaskDialogue.Proofs.Turn.Frame
import TaskDialogue.Proofs.Turn.Settled
import TaskDialogue.Proofs.Turn.Failure
import TaskDialogue.Proofs.Turn.Dialogue
import TaskDialogue.Proofs.Turn.Subject
import TaskDialogue.Proofs.Conversation.Pushes
import TaskDialogue.Proofs.Conversation.Outstanding
import TaskDialogue.Proofs.Conversation.Settled
import TaskDialogue.Proofs.Turn.QueryInput
import TaskDialogue.Proofs.Turn.Sequence
import TaskDialogue.Proofs.Store.Typing
import TaskDialogue.Proofs.Turn.Typing
import TaskDialogue.Proofs.Turn.Extension
import TaskDialogue.Proofs.Conversation.Bindings
import TaskDialogue.Proofs.Store.Renaming
import TaskDialogue.Proofs.Store.Matching
import TaskDialogue.Proofs.Turn.Renaming
import TaskDialogue.Proofs.Turn.Omission
import TaskDialogue.Proofs.Turn.Shape
import TaskDialogue.Proofs.Syntax.Sentences
import TaskDialogue.Proofs.Syntax.Blanks
import TaskDialogue.Proofs.Transcript.Display
import TaskDialogue.Proofs.Transcript.Marks
import TaskDialogue.Proofs.Cli.Check
import TaskDialogue.Proofs.Store.ReadBack
import TaskDialogue.Proofs.Turn.ReadBack
import TaskDialogue.Proofs.Conversation.HintWords
import TaskDialogue.Proofs.Transcript.MarkerLine
import TaskDialogue.Proofs.Store.Notes
import TaskDialogue.Proofs.Turn.Notices
import TaskDialogue.Proofs.Turn.MultiTarget
import TaskDialogue.Proofs.Turn.Building
import TaskDialogue.Proofs.Turn.QueryResults
import TaskDialogue.Proofs.Syntax.Rewriting
import TaskDialogue.Proofs.Turn.Ranges
import TaskDialogue.Proofs.Turn.Sugar
import TaskDialogue.Proofs.Turn.Resuming
import TaskDialogue.Proofs.Domain.Duplicates
import TaskDialogue.Proofs.Domain.Queries
import TaskDialogue.Proofs.Domain.Records
import TaskDialogue.Proofs.Json.Tokens
import TaskDialogue.Proofs.Json.NumberTexts
import TaskDialogue.Proofs.Json.Readable
import TaskDialogue.Proofs.Json.RoundTrip
import TaskDialogue.Proofs.Json.ShapeValues
import TaskDialogue.Proofs.Json.ShapeRoundTrip
import TaskDialogue.Proofs.Domain.Reading
import TaskDialogue.Proofs.Domain.Canonical
import TaskDialogue.Proofs.Domain.Slots
import TaskDialogue.Proofs.Conversation.Report
import TaskDialogue.Proofs.Syntax.Numerals
import TaskDialogue.Proofs.Syntax.Encoding
import TaskDialogue.Proofs.Task.Names
import TaskDialogue.Proofs.Domain.SlotTypes
import TaskDialogue.Proofs.Turn.Constants
