import MethodLines.Report.Document
import MethodLines.Report.Markdown
import MethodLines.Report.Terminal
import MethodLines.Settings

/-! Writing a report in one of its forms. -/
namespace MethodLines.Report

/-- The texts that make up a report, in order. Only the terminal form has colours. -/
def writes (format : Format) (color : Bool) (r : Report) : List Text :=
  match format with
  | .json => r.document
  | .markdown => r.markdown
  | .terminal => r.terminal color

def rendered (format : Format) (color : Bool) (r : Report) : Text :=
  (r.writes format color).flatten

def write {m : Type → Type} [Monad m] (format : Format) (color : Bool) (r : Report)
    (out : Outlet m) : ExceptT FileFault m Unit :=
  match format with
  | .json => r.writeDocument out
  | .markdown => r.writeMarkdown out
  | .terminal => r.writeTerminal color out

end MethodLines.Report
