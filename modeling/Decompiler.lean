import Decompiler.ClassFile.Attribute
import Decompiler.ClassFile.Annotation.Encode
import Decompiler.ClassFile.Annotation.Outline
import Decompiler.ClassFile.Constant.Text
import Decompiler.ClassFile.TypeAnnotation.Encode
import Decompiler.Cache.Annotation
import Decompiler.Idiom.Print
import Decompiler.Idiom.Sketch
import Decompiler.Idiom.Trace
import Decompiler.Proofs.ArrayType
import Decompiler.Proofs.BindingHistory
import Decompiler.Proofs.CacheRoundTrip
import Decompiler.Proofs.CanonicalTree
import Decompiler.Proofs.Diagnosis
import Decompiler.Proofs.Extent
import Decompiler.Proofs.FirstOffence
import Decompiler.Proofs.Layout
import Decompiler.Proofs.Observation
import Decompiler.Proofs.Outline
import Decompiler.Proofs.PatternChange
import Decompiler.Proofs.PatternPrint
import Decompiler.Proofs.PatternTyping
import Decompiler.Proofs.PoolCapacity
import Decompiler.Proofs.PoolHistory
import Decompiler.Proofs.Relocation
import Decompiler.Proofs.RoundTrip
import Decompiler.Proofs.RuleGrammar
import Decompiler.Proofs.SinglePass
import Decompiler.Proofs.TableGrowth
import Decompiler.Proofs.Unification
