import DocBlocks.Main
import DocBlocks.Proofs.BlockSpan.OneComment
import DocBlocks.Proofs.BlockSpan.Search
import DocBlocks.Proofs.CommandLine.Status
import DocBlocks.Proofs.Definition.Table
import DocBlocks.Proofs.Injection.Indentation
import DocBlocks.Proofs.Injection.Marker
import DocBlocks.Proofs.Injection.Rerun
import DocBlocks.Proofs.Param.Layout
import DocBlocks.Proofs.Run.CarriageReturn
import DocBlocks.Proofs.Run.Tagging
import DocBlocks.Proofs.Tree.Spelling
import DocBlocks.Proofs.Declaration.ClassName
import DocBlocks.Proofs.Text.EndedLines
import DocBlocks.Proofs.Param.LineByLine
import DocBlocks.Proofs.Definition.Spelling
import DocBlocks.Proofs.Injection.Accounting
import DocBlocks.Proofs.Text.StrippedParts
import DocBlocks.Proofs.Declaration.Signature
import DocBlocks.Proofs.Tree.Memory
