import Appraisal.Files.Tree
import Appraisal.Main
import Appraisal.Proofs.Files
import Appraisal.Proofs.Walk
import Appraisal.Proofs.Picks
import Appraisal.Proofs.StoreMap
import Appraisal.Proofs.Definition
import Appraisal.Proofs.Session.Runs
import Appraisal.Proofs.Session.Landing
import Appraisal.Proofs.Session.Agreement
import Appraisal.Proofs.Session.History
import Appraisal.Proofs.Session.Progress
import Appraisal.Proofs.Session.Acceptance
import Appraisal.Proofs.Session.Prompts
import Appraisal.Proofs.Session.InPlace
import Appraisal.Proofs.Questionnaire.Runs
import Appraisal.Proofs.Questionnaire.Records
import Appraisal.Proofs.Questionnaire.Completion
import Appraisal.Proofs.Questionnaire.InPlace
import Appraisal.Proofs.Questionnaire.Refusals
import Appraisal.Proofs.Questionnaire.Isolation
import Appraisal.Proofs.Questionnaire.Prompts
import Appraisal.Proofs.Definition.WellFormed
import Appraisal.Proofs.Session.LeftLayers
import Appraisal.Proofs.Session.Repetition
import Appraisal.Proofs.Questionnaire.Repetition
import Appraisal.Proofs.Session.Following
import Appraisal.Proofs.Questionnaire.Completeness
import Appraisal.Proofs.Pruning
import Appraisal.Proofs.Session.Pruning
import Appraisal.Proofs.Questionnaire.Pruning
import Appraisal.Proofs.Report.CsvReading
import Appraisal.Proofs.Questionnaire.Replaying
import Appraisal.Proofs.Dialogue.Offers
import Appraisal.Proofs.Dialogue.Rounds
import Appraisal.Proofs.Dialogue.Menus
import Appraisal.Proofs.Dialogue.Agreement
import Appraisal.Proofs.Command.Exits
import Appraisal.Proofs.Command.Sittings
import Appraisal.Proofs.Questionnaire.Order
import Appraisal.Proofs.Command.Replays
import Appraisal.Proofs.Definition.Digest
import Appraisal.Proofs.Evaluation
import Appraisal.Proofs.Toggles
import Appraisal.Proofs.Reordering
import Appraisal.Proofs.Session.Selecting
import Appraisal.Proofs.Config
import Appraisal.Proofs.Definition.Faults
import Appraisal.Proofs.Session.OneStep
import Appraisal.Proofs.Questionnaire.Moving
import Appraisal.Proofs.Dialogue.Selections
import Appraisal.Proofs.Session.ByExample
import Appraisal.Proofs.Questionnaire.Notices
import Appraisal.Proofs.Questionnaire.Journal
import Appraisal.Proofs.Questionnaire.Warnings
import Appraisal.Proofs.Trees
import Appraisal.Proofs.Script
import Appraisal.Proofs.Depths
import Appraisal.Proofs.StoreWrites
import Appraisal.Proofs.Text.EditDistance
import Appraisal.Proofs.Suggestions
