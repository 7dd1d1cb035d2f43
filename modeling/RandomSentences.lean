import RandomSentences.Main
import RandomSentences.Config.Json
import RandomSentences.Files.Tree
import RandomSentences.Store.Scripted
import RandomSentences.Proofs.Construction
import RandomSentences.Proofs.Derivation
import RandomSentences.Proofs.Unguarded
import RandomSentences.Proofs.Telling
import RandomSentences.Proofs.Locality
import RandomSentences.Proofs.Pruning
import RandomSentences.Proofs.Batch
import RandomSentences.Proofs.Bracketing
import RandomSentences.Proofs.Layers
import RandomSentences.Proofs.Request
import RandomSentences.Proofs.Shape
import RandomSentences.Proofs.Precedence
import RandomSentences.Proofs.Overriding
import RandomSentences.Proofs.Listing
import RandomSentences.Proofs.Verdict
import RandomSentences.Proofs.FirstFault
import RandomSentences.Proofs.ByteOrder
import RandomSentences.Proofs.Unreachable
import RandomSentences.Proofs.Subtree
import RandomSentences.Proofs.Warnings
import RandomSentences.Proofs.Count
import RandomSentences.Proofs.Decoding
import RandomSentences.Proofs.OnePerLine
import RandomSentences.Proofs.Copies
import RandomSentences.Proofs.Loading
import RandomSentences.Proofs.PortVariable
import RandomSentences.Proofs.Bodies
import RandomSentences.Proofs.Omissions
import RandomSentences.Proofs.Namespaces
import RandomSentences.Proofs.FileText
