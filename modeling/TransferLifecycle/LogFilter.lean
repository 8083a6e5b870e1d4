import TransferLifecycle.LogFilter.Directive
import TransferLifecycle.Outcome

set_option autoImplicit false

/- A log filter is a list of directives with commas between them. A directive that is malformed is
passed over; one that is torn aborts the run before it begins. -/
namespace TransferLifecycle.LogFilter

def install (text : String) : Except Abort Unit :=
  if (text.splitOn ",").any (Directive.isTorn ·.toList) then .error .tornText else .ok ()

end TransferLifecycle.LogFilter
