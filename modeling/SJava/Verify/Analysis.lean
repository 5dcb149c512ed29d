import SJava.Verify.Run

/-!
# Analyses

The summary of a run that a front end shows: the diagnostics, of which there is at most one, the
scopes that were open at the end from the outside in, and the methods.
-/

namespace SJava

structure Analysis where
  diagnostics : List Diagnostic
  scopes : List Scope
  methods : List Method

namespace Analysis

def ok (a : Analysis) : Bool := a.diagnostics.isEmpty

def ofRun (run : Run) : Analysis where
  diagnostics := run.failure?.toList.map fun f => .ofReport f.report
  scopes := run.state.stack.scopes.reverse
  methods := run.table.methods

theorem diagnostics_ofRun (run : Run) :
    (ofRun run).diagnostics =
      run.failure?.toList.map fun f => ⟨f.violation.category, f.violation.message, f.line⟩ := rfl

def ofListing (listing : Listing) : Analysis := ofRun (.ofListing listing)

def ofText (t : Text) : Analysis := ofListing (.ofText t)

end Analysis

end SJava
