import VcOperator.Config.DistinctSockets
import VcOperator.Config.Rerun
/-!
# The rewrite, done twice

A rewritten entry names the socket of its service after `--socket`, and has no
`socket` of its own any more. The next scan finds a service without one, and the
next rewrite puts it on the default socket. So the second rewrite gives the document
of the first where no service had another socket.
-/

namespace VcOperator

namespace Config

variable {file : HostFile} {data : Text} {services : List HostService} {dir proxyCmd : String}
  {args : List String}

/-! ## One map -/

section Map

variable {α : Type} {read : α → Option RawServer} {entry : HostService → α}
  {existing : OrderedMap String α}

end Map

section Json

variable {root : Value} {obj : OrderedMap String Value}

end Json

/-! ## The document -/

end Config

end VcOperator
