import LuaTypings.Main
import LuaTypings.Host.Workspace
import LuaTypings.Exchange.Response
import LuaTypings.TypeText.Tree
import LuaTypings.Source.History
import LuaTypings.Model.Written
import LuaTypings.Proofs.TypeText.MatchingClosers
import LuaTypings.Proofs.TypeText.ParamItems
import LuaTypings.Proofs.TypeText.TreeMeaning
import LuaTypings.Proofs.TypeText.FunctionForm
import LuaTypings.Proofs.Model.Members
import LuaTypings.Proofs.Model.SourceText
import LuaTypings.Proofs.Declaration.PlainLines
import LuaTypings.Proofs.Declaration.DocumentedReturn
import LuaTypings.Proofs.Source.DeclaredSignature
import LuaTypings.Proofs.Repair.TupleReturns
import LuaTypings.Proofs.Repair.Repeated
import LuaTypings.Proofs.Repair.FunctionUnions
import LuaTypings.Proofs.Declaration.DroppedClass
import LuaTypings.Proofs.Model.Mentions
import LuaTypings.Proofs.Source.AnnotationOrder
import LuaTypings.Proofs.Source.ReadBack
import LuaTypings.Proofs.Source.LineEnds
import LuaTypings.Proofs.Declaration.BlockLines
import LuaTypings.Proofs.Batch.Sequence
import LuaTypings.Proofs.Batch.Changes
import LuaTypings.Proofs.Host.FileView
import LuaTypings.Proofs.Declaration.OptionalFields
import LuaTypings.Proofs.TypeText.LeadingWords
import LuaTypings.Proofs.TypeText.VariadicElement
import LuaTypings.Proofs.TypeText.AliasAlternatives
import LuaTypings.Proofs.TypeText.LiteralMembers
import LuaTypings.Proofs.TypeText.ParamNames
import LuaTypings.Proofs.Source.FieldProse
import LuaTypings.Proofs.TypeText.AliasNote
import LuaTypings.Proofs.Source.FieldType
import LuaTypings.Proofs.Repair.EventHandlers
import LuaTypings.Proofs.Repair.ReturnLines
import LuaTypings.Proofs.Settings.ModuleEntries
import LuaTypings.Proofs.Declaration.CommentEnd
import LuaTypings.Proofs.TypeText.Nesting
import LuaTypings.Proofs.Declaration.ClassBlocks
import LuaTypings.Proofs.Settings.Reports
import LuaTypings.Proofs.Source.WellFormed
