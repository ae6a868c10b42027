import Pipework.Pipe.Build

/-! Registered pipes by their ids. -/

namespace Pipework

abbrev Catalog := Keyed Pipe

namespace Catalog

def insert (c : Catalog) (p : Pipe) : Catalog := Keyed.put c p.id p

def register (c : Catalog) (fresh : String) (d : Definition) : Except BuildError (Pipe × Catalog) :=
  match Pipe.build fresh d with
  | .error e => .error e
  | .ok p => .ok (p, c.insert p)

def remove (c : Catalog) (id : String) : Catalog := Keyed.erase c id

def ids (c : Catalog) : List String := (Keyed.keys c).mergeSort fun a b => !(b < a)

end Catalog

end Pipework
