import Edm.Command.Args
import Edm.Sample.Catalog

/-!
This module contains the program: what a command line does with the catalog.
-/

namespace Edm

def Catalog.allRows : Kind Catalog.Row Catalog.Row where
  name := "entiodata::catalog::"
  inject := id
  project? := some

structure Outcome where
  code : UInt32
  output : String := ""
  diagnostics : String := ""
deriving DecidableEq, Repr

namespace Command

def Invocation.config (i : Invocation) : Config :=
  { namespace_ := "Catalog"
    maxResults := i.maxResults?.getD 100
    includeNullProperties := !i.omitNulls }

def execute (args : List String) : Outcome :=
  match readArgs args with
  | .error .help => { code := 0 }
  | .error .misuse => { code := 2 }
  | .ok invocation =>
    match run (Catalog.service Catalog.allRows invocation.config) invocation.command with
    | .ok output => { code := 0, output }
    | .error (.service (.panicked cause)) => { code := 101, diagnostics := cause.message ++ "\n" }
    | .error fault => { code := 1, diagnostics := "Error: " ++ fault.inspect ++ "\n" }

end Command

end Edm
