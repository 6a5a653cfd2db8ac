import TwoBitAlpha.Conversion
import TwoBitAlpha.Main
import TwoBitAlpha.Proofs.CArray.Limit
import TwoBitAlpha.Proofs.CArray.Naming
import TwoBitAlpha.Proofs.CArray.ReadBack
import TwoBitAlpha.Proofs.CommandLine.ArrayName
import TwoBitAlpha.Proofs.CommandLine.Encoding
import TwoBitAlpha.Proofs.CommandLine.RoundTrip
import TwoBitAlpha.Proofs.CommandLine.Saving
import TwoBitAlpha.Proofs.CommandLine.View
import TwoBitAlpha.Proofs.Conversion
import TwoBitAlpha.Proofs.PackedMap.Access
import TwoBitAlpha.Proofs.PackedMap.AlphaOnly
import TwoBitAlpha.Proofs.PackedMap.Checksum
import TwoBitAlpha.Proofs.PackedMap.Editing
import TwoBitAlpha.Proofs.PackedMap.Padding
import TwoBitAlpha.Proofs.PackedMap.RoundTrip
import TwoBitAlpha.Proofs.PackedMap.RowOrder
import TwoBitAlpha.Proofs.PackedMap.Splitting
import TwoBitAlpha.Proofs.PackedMap.Stacking
import TwoBitAlpha.Proofs.PackedMap.Widening
import TwoBitAlpha.Proofs.Palette.Distinct
import TwoBitAlpha.Proofs.Palette.Meaning
import TwoBitAlpha.Proofs.Palette.Preview
import TwoBitAlpha.Proofs.Palette.Reading
import TwoBitAlpha.Proofs.Palette.Writing
import TwoBitAlpha.Proofs.Canvas.ScanOrder
import TwoBitAlpha.Proofs.PackedMap.NoWrap
import TwoBitAlpha.Proofs.Resampling
import TwoBitAlpha.Proofs.PackedMap.Fitting
