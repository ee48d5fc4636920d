import MeshControl.Client.Error
import MeshControl.Connection.Exchange
/-!
The report of a failure: what failed, and behind it the causes, outermost first. A cause that
stands alone is indented by four places, several are numbered from zero.
-/

namespace MeshControl.CommandLine

/-- What failed, and its causes. -/
structure Report where
  text : String
  causes : List String := []
deriving DecidableEq, Repr

namespace Report

/-- A number in five places. -/
def place (number : Nat) : String :=
  let digits := toString number
  String.ofList (List.replicate (5 - digits.length) ' ') ++ digits

def causeLines : List String → List String
  | [cause] => ["    " ++ cause]
  | causes => causes.zipIdx.map fun (cause, number) => place number ++ ": " ++ cause

def lines (report : Report) : List String :=
  ("Error: " ++ report.text) ::
    if report.causes.isEmpty then [] else "" :: "Caused by:" :: causeLines report.causes

def render (report : Report) : String :=
  String.join (report.lines.map (· ++ "\n"))

/-- A failure as the cause of another. -/
def within (text : String) (inner : Report) : Report :=
  { text, causes := inner.text :: inner.causes }

def ofClient (e : ClientError) : Report := { text := e.message, causes := e.causes }

def ofServer (e : ServerError) : Report := { text := e.message, causes := e.causes }

end Report

end MeshControl.CommandLine
