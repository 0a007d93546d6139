/-!
# Methods of requests

Any token may name a method.
-/

namespace ConnectorControl
namespace Http

def isTokenChar (c : Char) : Bool := c.isAlphanum || "!#$%&'*+-.^_`|~".toList.contains c

/-- whether a text names a method -/
def isMethod (s : String) : Bool := s ≠ "" && s.toList.all isTokenChar

end Http
end ConnectorControl
