import Stagecraft.Module.Error
import Stagecraft.Project.Path
import Stagecraft.Script.Parse
import Std.Data.TreeMap

namespace Stagecraft

inductive Encoding where
  | utf8
  | shiftJis
  deriving DecidableEq, Repr, Inhabited

abbrev Files := Std.TreeMap String String

inductive CompileError where
  | unsupportedEncoding
  | unsupportedFile (path : String)
  | syntaxError (diagnostic : FileDiagnostic)
  | includeNotFound (target path : String)
  | includeCycle (chain : List String)
  | missingModule (path : String)
  | module (error : ModuleError)
  deriving DecidableEq, Repr

namespace CompileError

def code : CompileError → String
  | unsupportedEncoding => "COMPILER_ENCODING_UNSUPPORTED"
  | unsupportedFile _ => "SOURCE_KIND_UNSUPPORTED"
  | syntaxError d => d.diagnostic.issue.code
  | includeNotFound _ _ => "INCLUDE_NOT_FOUND"
  | includeCycle _ => "INCLUDE_CYCLE"
  | missingModule _ => "COMPILER_MODULE_MISSING"
  | module e => e.code

def message : CompileError → String
  | unsupportedEncoding => "Source encoding ShiftJis is not supported; use UTF-8."
  | unsupportedFile path => s!"Unsupported source extension: {path}"
  | syntaxError d => s!"{d.file}:{d.diagnostic.span.render}: {d.diagnostic.issue.message}"
  | includeNotFound target path => s!"Include \"{target}\" referenced by \"{path}\" not found."
  | includeCycle chain => "Include cycle detected: " ++ Text.join " -> " chain
  | missingModule path => s!"No module was produced for \"{path}\"."
  | module e => e.message

def span? : CompileError → Option Span
  | syntaxError d => some d.diagnostic.span
  | _ => none

end CompileError

structure Source where
  script : Script
  includes : List String

abbrev Sources := Std.TreeMap String Source

namespace Sources

def isScript (path : String) : Bool :=
  path.endsWith ".nss"

/-- Reads one file and adds it to those read before. A file with a syntax error is not read. -/
def readFile (isKnown : String → Bool) (raw text : String)
    (found : Sources × Array FileDiagnostic) :
    Except CompileError (Sources × Array FileDiagnostic) :=
  let path := Path.normalize raw
  if !isScript path then .error (.unsupportedFile path)
  else
    let parsed := Parse.parseScript path text
    match parsed.diagnostics.find? Diagnostic.isError with
    | some diagnostic => .error (.syntaxError { file := path, diagnostic })
    | none =>
      let includes := parsed.value.includes.map fun i => Path.resolve isKnown path i.path
      let diagnostics := parsed.diagnostics.map fun diagnostic => { file := path, diagnostic }
      .ok (found.1.insert path { script := parsed.value, includes },
        found.2 ++ diagnostics.toArray)

/-- Reads the files of a project in the order of their paths. Of files with the same normal path the
last one counts. -/
def read (files : Files) : Except CompileError (Sources × Array FileDiagnostic) :=
  let known := files.keys.map Path.normalize
  files.toList.foldlM (fun found (path, text) => readFile known.contains path text found) (∅, #[])

end Sources

end Stagecraft
