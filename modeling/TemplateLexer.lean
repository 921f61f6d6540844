import TemplateLexer.Main
import TemplateLexer.Proofs.Dump.Json
import TemplateLexer.Proofs.Dump.Lines
import TemplateLexer.Proofs.Lexer.Again
import TemplateLexer.Proofs.Lexer.Control
import TemplateLexer.Proofs.Lexer.Spans
import TemplateLexer.Proofs.Locating
import TemplateLexer.Proofs.RawBlock
import TemplateLexer.Proofs.Report
import TemplateLexer.Proofs.Session.Verdict
import TemplateLexer.Proofs.Session.Watch
import TemplateLexer.Proofs.Tag.Comments
import TemplateLexer.Proofs.Tag.Grammar
import TemplateLexer.Proofs.Tag.Lookups
import TemplateLexer.Proofs.Writer.Refusal
import TemplateLexer.Proofs.Writer.WellFormed
import TemplateLexer.Session.Replay
