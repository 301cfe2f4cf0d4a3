import ScriptConsole.CommandLine.Dialogue
import ScriptConsole.CommandLine.Filesystem
import ScriptConsole.CommandLine.Outcome
import ScriptConsole.CommandLine.Request
import ScriptConsole.CommandLine.World
import ScriptConsole.Error
import ScriptConsole.Evaluation
import ScriptConsole.Json.Number
import ScriptConsole.Json.Reading
import ScriptConsole.Json.Skip
import ScriptConsole.Json.Text
import ScriptConsole.Json.Writer
import ScriptConsole.Main
import ScriptConsole.Number
import ScriptConsole.Scope
import ScriptConsole.Screen
import ScriptConsole.Session
import ScriptConsole.Terminal
import ScriptConsole.Terminal.Drawing
import ScriptConsole.Terminal.Event
import ScriptConsole.Terminal.Line
import ScriptConsole.Terminal.Settings
import ScriptConsole.Terminal.Settings.Reader
import ScriptConsole.Text.Blank
import ScriptConsole.Text.Escaped
import ScriptConsole.Text.Invisible
import ScriptConsole.Text.Lines
import ScriptConsole.Text.Quoted
import ScriptConsole.Text.Utf8
import ScriptConsole.Token
import ScriptConsole.Token.Scanner
import ScriptConsole.Tree.Document
import ScriptConsole.Tree.Node
import ScriptConsole.Tree.Operator
import ScriptConsole.Tree.Parser
import ScriptConsole.Tree.Printer
import ScriptConsole.Value
import ScriptConsole.Value.Arithmetic
import ScriptConsole.Proofs.Reading
import ScriptConsole.Proofs.Grammar
import ScriptConsole.Proofs.Lexemes
import ScriptConsole.Proofs.RegularTrees
import ScriptConsole.Proofs.PrintedTokens
import ScriptConsole.Proofs.Regrouping
import ScriptConsole.Proofs.Neighbours
import ScriptConsole.Proofs.EmptySlots
import ScriptConsole.Proofs.RoundTrip
import ScriptConsole.Proofs.PrintedBlocks
import ScriptConsole.Proofs.Effects
import ScriptConsole.Proofs.CallDepth
import ScriptConsole.Proofs.Lifetimes
import ScriptConsole.Proofs.Lockstep
import ScriptConsole.Proofs.KnownScopes
import ScriptConsole.Proofs.LexicalScoping
import ScriptConsole.Proofs.Submissions
import ScriptConsole.Proofs.ScannedLines
import ScriptConsole.Proofs.Failing
import ScriptConsole.Proofs.Continuation
import ScriptConsole.Proofs.Painting
import ScriptConsole.Proofs.PaintedCells
import ScriptConsole.Proofs.Rendering
import ScriptConsole.Proofs.Spelling
import ScriptConsole.Proofs.Covering
import ScriptConsole.Proofs.Parentheses
import ScriptConsole.Proofs.StoredTrees
import ScriptConsole.Proofs.ErrorPhases
import ScriptConsole.Proofs.Arithmetic
import ScriptConsole.Proofs.Scrollback
import ScriptConsole.Proofs.LineEditing
import ScriptConsole.Proofs.Decoding
import ScriptConsole.Proofs.InputText
import ScriptConsole.Proofs.Shorthands
import ScriptConsole.Proofs.CallLimit
import ScriptConsole.Proofs.Browsing
import ScriptConsole.Proofs.KeyCodes
import ScriptConsole.Proofs.ScopeForests
import ScriptConsole.Proofs.Operators
import ScriptConsole.Proofs.Numerals
import ScriptConsole.Proofs.PrintedLiterals
import ScriptConsole.Proofs.ListForms
import ScriptConsole.Proofs.ClosedStrings
import ScriptConsole.Proofs.JoinedTexts
import ScriptConsole.Proofs.JsonNumbers
import ScriptConsole.Proofs.JsonTexts
import ScriptConsole.Proofs.JsonValues
import ScriptConsole.Proofs.OpenBlocks
import ScriptConsole.Proofs.SettingsDocuments
