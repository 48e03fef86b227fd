import JarCensus.Main
import JarCensus.Proofs.ClassFile.Layout
import JarCensus.Zip.Writer
import JarCensus.Proofs.ClassFile.Decoding
import JarCensus.Proofs.Counting
import JarCensus.Proofs.MethodIndex
import JarCensus.Proofs.Ranking
import JarCensus.Proofs.SelfExclusion
import JarCensus.Proofs.Comparison
import JarCensus.Proofs.OwnCalls
import JarCensus.Proofs.ClassFile.Truncation
import JarCensus.Proofs.Text.ByteOrder
import JarCensus.Proofs.CrossUsage
import JarCensus.Proofs.Agreement
import JarCensus.Proofs.SelfUsage
import JarCensus.Proofs.FilingHistory
import JarCensus.Proofs.Text.Search
import JarCensus.Proofs.Descriptor
import JarCensus.Proofs.Signature
import JarCensus.Proofs.ClassFile.InstructionLayout
import JarCensus.Proofs.FileSystem.Lookup
import JarCensus.Proofs.FileSystem.Names
import JarCensus.Proofs.FileSystem.PathOrder
import JarCensus.Proofs.FileSystem.Saving
import JarCensus.Proofs.FileSystem.Scan
import JarCensus.Proofs.Report
import JarCensus.Proofs.Delivery
import JarCensus.Proofs.Ancestry
import JarCensus.Proofs.Resolution
import JarCensus.Proofs.CountOutcome
import JarCensus.Proofs.HierarchyRefinement
import JarCensus.Proofs.DescriptorGrammar
import JarCensus.Proofs.Text.Pieces
import JarCensus.Proofs.SignatureParts
import JarCensus.Proofs.OwnDescriptor
import JarCensus.Proofs.ClassFile.TextEncoding
import JarCensus.Proofs.ClassOrder
import JarCensus.Proofs.SourceIndependence
import JarCensus.Proofs.Text.Lossy
import JarCensus.Proofs.Verdict
import JarCensus.Proofs.RankOrder
import JarCensus.Proofs.ClassFile.PoolSlots
import JarCensus.Proofs.ClassFile.Checked.Decode
