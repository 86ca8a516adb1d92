import SqlFilter.Catalog
import SqlFilter.Config.Reader
import SqlFilter.Proofs.BindRun
import SqlFilter.Proofs.CatalogHistory
import SqlFilter.Proofs.ExistingSelect
import SqlFilter.Proofs.KeyCompile
import SqlFilter.Proofs.KeyReading
import SqlFilter.Proofs.MapPieces
import SqlFilter.Proofs.OperatorForms
import SqlFilter.Proofs.PlaceholderNumbers
import SqlFilter.Proofs.Positional
import SqlFilter.Proofs.ScalarMap
import SqlFilter.Proofs.StrictMode
import SqlFilter.Proofs.TimeRange
import SqlFilter.Proofs.Unfiltered
import SqlFilter.Proofs.UniqueReading
import SqlFilter.Proofs.ValueIndependence
import SqlFilter.Proofs.WholeStatement
import SqlFilter.Proofs.GrowingGroup
import SqlFilter.Proofs.CrossProduct
import SqlFilter.Proofs.Membership
import SqlFilter.Proofs.SharedOperand
import SqlFilter.Proofs.DistinctLayouts
import SqlFilter.Proofs.OperandUse
import SqlFilter.Proofs.Qualifier
import SqlFilter.Proofs.AliasHistory
import SqlFilter.Proofs.TemplateParts
import SqlFilter.Proofs.QuotedName
