import RuleLexer.Build
import RuleLexer.Callback
import RuleLexer.Catalog
import RuleLexer.Category
import RuleLexer.Category.Json
import RuleLexer.CommandLine.Outcome
import RuleLexer.CommandLine.Request
import RuleLexer.CommandLine.Usage
import RuleLexer.Coverage
import RuleLexer.Entries
import RuleLexer.Indentation
import RuleLexer.Language.ActionScript
import RuleLexer.Language.CoffeeScript
import RuleLexer.Language.Css
import RuleLexer.Language.Haxe
import RuleLexer.Language.Html
import RuleLexer.Language.JavaScript
import RuleLexer.Language.Literal
import RuleLexer.Language.ObjectiveJ
import RuleLexer.Language.Php
import RuleLexer.Language.PhpFunctions
import RuleLexer.Language.Sass
import RuleLexer.Language.Score
import RuleLexer.Language.Sniff
import RuleLexer.Language.Xml
import RuleLexer.Listing
import RuleLexer.Log.Buffer
import RuleLexer.Log.Code
import RuleLexer.Log.Event
import RuleLexer.Log.Journal
import RuleLexer.Log.Level
import RuleLexer.Log.Message
import RuleLexer.Log.Render
import RuleLexer.Log.Report
import RuleLexer.Log.Timestamp
import RuleLexer.Memo
import RuleLexer.Notice
import RuleLexer.Number.Single
import RuleLexer.Options
import RuleLexer.Pattern
import RuleLexer.Preferences
import RuleLexer.Regex.Basic
import RuleLexer.Regex.CharSet
import RuleLexer.Regex.Codes
import RuleLexer.Regex.Node
import RuleLexer.Regex.Parser
import RuleLexer.Regex.Property
import RuleLexer.Regex.PropertyName
import RuleLexer.Regex.Room
import RuleLexer.Regex.Run
import RuleLexer.Regex.Simplify
import RuleLexer.Regex.Syntax
import RuleLexer.Regex.TextBreak
import RuleLexer.Rule
import RuleLexer.Run
import RuleLexer.Setup
import RuleLexer.Source
import RuleLexer.Source.Tree
import RuleLexer.Stack
import RuleLexer.Style
import RuleLexer.Style.Murphy
import RuleLexer.Style.Sheet
import RuleLexer.Table
import RuleLexer.Table.Compile
import RuleLexer.Table.Describe
import RuleLexer.Table.Error
import RuleLexer.Text.Blank
import RuleLexer.Text.Cursor
import RuleLexer.Text.Json
import RuleLexer.Text.Json.Reader
import RuleLexer.Text.Quoted
import RuleLexer.Text.Utf8
import RuleLexer.Token
import RuleLexer.Unicode.Age
import RuleLexer.Unicode.Break
import RuleLexer.Unicode.CaseChange
import RuleLexer.Unicode.CaseFold
import RuleLexer.Unicode.CodeTable
import RuleLexer.Unicode.Control
import RuleLexer.Unicode.Digit
import RuleLexer.Unicode.Emoji
import RuleLexer.Unicode.Extender
import RuleLexer.Unicode.GeneralCategory
import RuleLexer.Unicode.Identifier
import RuleLexer.Unicode.Ideograph
import RuleLexer.Unicode.Letter
import RuleLexer.Unicode.Mark
import RuleLexer.Unicode.Punctuation
import RuleLexer.Unicode.Script
import RuleLexer.Unicode.ScriptUse
import RuleLexer.Unicode.Space
import RuleLexer.Unicode.Word
import RuleLexer.Words
import RuleLexer.Main
import RuleLexer.Proofs.Asking
import RuleLexer.Proofs.Binding
import RuleLexer.Proofs.Bouncing
import RuleLexer.Proofs.Boundary
import RuleLexer.Proofs.Built
import RuleLexer.Proofs.Callbacks
import RuleLexer.Proofs.CoffeeScript
import RuleLexer.Proofs.Cover
import RuleLexer.Proofs.Delegation
import RuleLexer.Proofs.Drain
import RuleLexer.Proofs.Expansion
import RuleLexer.Proofs.Includes
import RuleLexer.Proofs.Inlining
import RuleLexer.Proofs.Languages
import RuleLexer.Proofs.Located
import RuleLexer.Proofs.MatchSpan
import RuleLexer.Proofs.Nested
import RuleLexer.Proofs.Notices
import RuleLexer.Proofs.Partition
import RuleLexer.Proofs.Piece
import RuleLexer.Proofs.Played
import RuleLexer.Proofs.Point
import RuleLexer.Proofs.Progress
import RuleLexer.Proofs.StackSafety
import RuleLexer.Proofs.StackStates
import RuleLexer.Proofs.Stalling
import RuleLexer.Proofs.Step
import RuleLexer.Proofs.WellFormed
import RuleLexer.Proofs.Lockstep
import RuleLexer.Proofs.OwnRuns
import RuleLexer.Proofs.Retagging
import RuleLexer.Proofs.Extending
import RuleLexer.Proofs.Refiltering
import RuleLexer.Proofs.Resynchronising
import RuleLexer.Proofs.Depth
import RuleLexer.Proofs.Condensing
import RuleLexer.Proofs.Walk
import RuleLexer.Proofs.Shape
import RuleLexer.Proofs.Survey
import RuleLexer.Proofs.JavaScript
import RuleLexer.Proofs.Room
import RuleLexer.Proofs.SassRules
import RuleLexer.Proofs.Sass
import RuleLexer.Proofs.Blocks
import RuleLexer.Proofs.Finding
import RuleLexer.Proofs.KnownStart
import RuleLexer.Proofs.Css
import RuleLexer.Proofs.CssBlocks
import RuleLexer.Proofs.Lazy
import RuleLexer.Proofs.StackShapes
import RuleLexer.Proofs.Endings
import RuleLexer.Proofs.Resuming
import RuleLexer.Proofs.Html
import RuleLexer.Proofs.Refusing
import RuleLexer.Proofs.BoundedStacks
import RuleLexer.Proofs.LanguageStacks
import RuleLexer.Proofs.StyleSheet
import RuleLexer.Proofs.Xslt
import RuleLexer.Proofs.PhpOptions
import RuleLexer.Proofs.StackContents
import RuleLexer.Proofs.GroupParts
import RuleLexer.Proofs.Containment
import RuleLexer.Proofs.Quoting
import RuleLexer.Proofs.RawListing
import RuleLexer.Proofs.Idling
import RuleLexer.Proofs.CoverageCheck
import RuleLexer.Proofs.Reading
import RuleLexer.Proofs.ClassReading
import RuleLexer.Proofs.Embedding
import RuleLexer.Proofs.Grouping
import RuleLexer.Proofs.Wrapping
import RuleLexer.Proofs.Combining
import RuleLexer.Proofs.Building
import RuleLexer.Proofs.KeptGroups
import RuleLexer.Proofs.Lookahead
import RuleLexer.Proofs.Greedy
import RuleLexer.Proofs.Haxe
import RuleLexer.Proofs.HeredocEnd
import RuleLexer.Proofs.UnclosedHeredoc
import RuleLexer.Proofs.FirstWord
import RuleLexer.Proofs.LongestWord
import RuleLexer.Proofs.Overriding
import RuleLexer.Proofs.StyleWords
import RuleLexer.Proofs.Entries
import RuleLexer.Proofs.Assignments
import RuleLexer.Proofs.LogBuffer
import RuleLexer.Proofs.SourceContext
import RuleLexer.Proofs.LongMessages
import RuleLexer.Proofs.Writing
import RuleLexer.Proofs.Arguments
import RuleLexer.Proofs.Sources
import RuleLexer.Proofs.AllOrNothing
