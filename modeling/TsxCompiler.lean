import TsxCompiler.Main
import TsxCompiler.Tree.Same
import TsxCompiler.Proofs.Stability
import TsxCompiler.Proofs.DoubledSigns
import TsxCompiler.Proofs.GeneratedCode
import TsxCompiler.Proofs.MarkupSwitch
import TsxCompiler.Proofs.PassChains
import TsxCompiler.Proofs.UnterminatedFields
import TsxCompiler.Proofs.Apostrophes
import TsxCompiler.Proofs.ErasedExports
import TsxCompiler.Proofs.Registrations
import TsxCompiler.Proofs.DefaultReads
import TsxCompiler.Proofs.ExportOrder
import TsxCompiler.Proofs.ReadOrder
import TsxCompiler.Proofs.HelperModes
import TsxCompiler.Proofs.FreshBindings
import TsxCompiler.Proofs.PatternTexts
import TsxCompiler.Proofs.ErrorPlaces
import TsxCompiler.Proofs.ErasedTypes
import TsxCompiler.Proofs.StrippedMarkers
import TsxCompiler.Proofs.TracedNodes
import TsxCompiler.Proofs.ErasedModules
import TsxCompiler.Proofs.NormalizedText
import TsxCompiler.Proofs.Renaming
import TsxCompiler.Proofs.BracketScan
import TsxCompiler.Proofs.Halting
