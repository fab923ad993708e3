import Scrape.Keyed

/-!
# Session

The store of a record: the values that its rules put under keys, for its later rules to get.
-/

namespace Scrape

/-- The values of a record under their keys. -/
structure Session where
  vars : List (String × String)

namespace Session

/-- The session in which nothing has been put. -/
def empty : Session := ⟨[]⟩

/-- The value under a key. -/
def get? (key : String) (s : Session) : Option String := Keyed.get? key s.vars

/-- The session with a value put under a key. -/
def put (key value : String) (s : Session) : Session := ⟨Keyed.put key value s.vars⟩

theorem get?_put_self (key value : String) (s : Session) : (s.put key value).get? key = some value :=
  Keyed.get?_put_self key value s.vars

theorem get?_put_of_ne {key other : String} (h : key ≠ other) (value : String) (s : Session) :
    (s.put key value).get? other = s.get? other :=
  Keyed.get?_put_of_ne h value s.vars

end Session
end Scrape
