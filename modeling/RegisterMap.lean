import RegisterMap.Alias
import RegisterMap.Checked
import RegisterMap.CommandLine
import RegisterMap.Compile
import RegisterMap.Declared.Dimension
import RegisterMap.Declared.Field
import RegisterMap.Declared.Interrupt
import RegisterMap.Declared.Peripheral
import RegisterMap.Declared.Register
import RegisterMap.Declared.Value
import RegisterMap.Description
import RegisterMap.Device
import RegisterMap.Draft
import RegisterMap.Fault
import RegisterMap.FileTree
import RegisterMap.FirstWins
import RegisterMap.Group
import RegisterMap.Job
import RegisterMap.Listing.Basic
import RegisterMap.Listing.Claim
import RegisterMap.Listing.Constant
import RegisterMap.Listing.Line
import RegisterMap.Listing.Text
import RegisterMap.Location
import RegisterMap.Main
import RegisterMap.Name
import RegisterMap.Notice
import RegisterMap.Numeral
import RegisterMap.Proofs.Alias
import RegisterMap.Proofs.BitSpan
import RegisterMap.Proofs.Blame
import RegisterMap.Proofs.Checked
import RegisterMap.Proofs.Description
import RegisterMap.Proofs.Dimension
import RegisterMap.Proofs.Element
import RegisterMap.Proofs.Expansion
import RegisterMap.Proofs.Failing
import RegisterMap.Proofs.FieldTable
import RegisterMap.Proofs.FirstWins
import RegisterMap.Proofs.Identifier
import RegisterMap.Proofs.Indexed
import RegisterMap.Proofs.Indices
import RegisterMap.Proofs.Invariant
import RegisterMap.Proofs.Lines
import RegisterMap.Proofs.Listing.Claim
import RegisterMap.Proofs.Listing.Entries
import RegisterMap.Proofs.Listing.Layout
import RegisterMap.Proofs.Listing.Ledger
import RegisterMap.Proofs.Listing.Literal
import RegisterMap.Proofs.Listing.Outline
import RegisterMap.Proofs.Listing.Pieces
import RegisterMap.Proofs.Listing.RoundTrip
import RegisterMap.Proofs.Listing.Scopes
import RegisterMap.Proofs.Listing.Shape
import RegisterMap.Proofs.Listing.Tables
import RegisterMap.Proofs.Listing.Vectors
import RegisterMap.Proofs.Listing.WellFormed
import RegisterMap.Proofs.Location
import RegisterMap.Proofs.Marks
import RegisterMap.Proofs.Meaning
import RegisterMap.Proofs.Name
import RegisterMap.Proofs.Numeral
import RegisterMap.Proofs.Parent
import RegisterMap.Proofs.RangeNames
import RegisterMap.Proofs.Reordering
import RegisterMap.Proofs.Row
import RegisterMap.Proofs.Unlinking
import RegisterMap.Proofs.Vectors
import RegisterMap.Proofs.Walk
import RegisterMap.Selection
import RegisterMap.Text.Blank
import RegisterMap.Text.Case
import RegisterMap.Text.CaseTable
import RegisterMap.Vectors
import RegisterMap.Width
import RegisterMap.Word
import RegisterMap.Xml.Character
import RegisterMap.Xml.Document
import RegisterMap.Xml.Element
import RegisterMap.Xml.Reference
import RegisterMap.Xml.Token
import RegisterMap.Proofs.LetterCase
import RegisterMap.Proofs.Relayout
import RegisterMap.Proofs.Selection
import RegisterMap.Proofs.Grouping
import RegisterMap.Proofs.Collapse
