import RvCodec.Cli.Session
import RvCodec.Cli.Tool
import RvCodec.Main
import RvCodec.Proofs.DetectedWidth
import RvCodec.Proofs.LineOrder
import RvCodec.Proofs.ReadBack
import RvCodec.Proofs.RoundTrip
import RvCodec.Proofs.FirstFault
import RvCodec.Proofs.CheckedAccess
import RvCodec.Proofs.CheckedAssembling
import RvCodec.Proofs.Restrictions
import RvCodec.Proofs.Sessions
import RvCodec.Proofs.CheckedDisassembling
import RvCodec.Proofs.ExactEncodings
import RvCodec.Proofs.Batches
import RvCodec.Proofs.Classification
import RvCodec.Proofs.TrackerCalls
import RvCodec.Proofs.LoadedConstants
import RvCodec.Proofs.LetterCase
import RvCodec.Proofs.Ambiguities
import RvCodec.Proofs.ShiftAmounts
import RvCodec.Proofs.Comments
import RvCodec.Proofs.DeclarationOrder
import RvCodec.Proofs.VectorTypes
import RvCodec.Proofs.ImmediateHeadings
import RvCodec.Proofs.ReferenceLinks
import RvCodec.Proofs.LayeredSettings
import RvCodec.Proofs.Listings
import RvCodec.Proofs.FieldRanges
import RvCodec.Proofs.RegisterNames
