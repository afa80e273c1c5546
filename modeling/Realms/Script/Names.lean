import Realms.Script.Tree

/-!
The names that patterns and declarations bind, in the order of the source. Keys and defaults bind
nothing.
-/
namespace Realms.Script

mutual

def Pattern.names : Pattern → List String
  | .name name => [name]
  | .object members => memberPatternNames members
  | .array items => itemPatternNames items
  | .hole => []
  | .withDefault target _ => target.names
  | .rest target => target.names

def itemPatternNames : List Pattern → List String
  | [] => []
  | item :: more => item.names ++ itemPatternNames more

def PatternMember.names : PatternMember → List String
  | .entry _ target => target.names
  | .rest target => target.names

def memberPatternNames : List PatternMember → List String
  | [] => []
  | member :: more => member.names ++ memberPatternNames more

end

def Variable.names : Variable → List String
  | .mk target _ => target.names

/-- The names of a declaration that can be exported as values of a plain script. -/
def Declaration.valueNames : Declaration → List String
  | .bindings _ items => items.flatMap Variable.names
  | .function value => value.name.toList
  | .classOf name => name.toList
  | _ => []

end Realms.Script
