import Scrape.Html.Node

/-!
# Html — Build — Forest

Trees under construction.  While a page is read, its nodes are still moved about, so they are kept
side by side and refer to each other by number; node zero is the page.  At the end the tree is taken
out (`Forest.node?`).
-/

namespace Scrape.Html

/-- What a node under construction is. -/
inductive EntryKind where
  | page
  | element (tag : Tag)
  | text (s : String)
  | comment (s : String)

/-- A node under construction, with the numbers of the node above and of the nodes below. -/
structure Entry where
  kind : EntryKind
  parent? : Option Nat
  children : Array Nat

instance : Inhabited Entry := ⟨⟨.page, none, #[]⟩⟩

/-- Nodes under construction. -/
abbrev Forest := Array Entry

namespace Forest

/-- The page without nodes. -/
def empty : Forest := #[⟨.page, none, #[]⟩]

/-- Adds a node that stands alone. -/
def add (c : EntryKind) (f : Forest) : Nat × Forest := (f.size, f.push ⟨c, none, #[]⟩)

/-- The tag of an element. -/
def tag? (id : Nat) (f : Forest) : Option Tag :=
  match (f[id]?).map Entry.kind with
  | some (.element t) => some t
  | _                 => none

/-- Whether a node is a text. -/
def isText (id : Nat) (f : Forest) : Bool :=
  match (f[id]?).map Entry.kind with
  | some (.text _) => true
  | _              => false

/-- The children of a node. -/
def children (id : Nat) (f : Forest) : Array Nat := ((f[id]?).map Entry.children).getD #[]

/-- The node above a node. -/
def parent? (id : Nat) (f : Forest) : Option Nat := (f[id]?).bind Entry.parent?

/-- Changes a node. -/
def change (id : Nat) (g : Entry → Entry) (f : Forest) : Forest := f.modify id g

/-- Takes a node out of its place. -/
def detach (id : Nat) (f : Forest) : Forest :=
  match f.parent? id with
  | some p =>
    (f.change p fun e => { e with children := e.children.filter (· != id) }).change id
      fun e => { e with parent? := none }
  | none => f

/-- Puts a node last below another. -/
def append (parent id : Nat) (f : Forest) : Forest :=
  ((f.detach id).change id fun e => { e with parent? := some parent }).change parent
    fun e => { e with children := e.children.push id }

/-- The place of a node among the children of the one above. -/
def indexIn (parent id : Nat) (f : Forest) : Nat :=
  ((f.children parent).findIdx? (· == id)).getD (f.children parent).size

/-- Puts a node before another. -/
def insertBefore (sibling id : Nat) (f : Forest) : Forest :=
  let f := f.detach id
  match f.parent? sibling with
  | some p =>
    let i := f.indexIn p sibling
    (f.change id fun e => { e with parent? := some p }).change p
      fun e => { e with children := e.children.insertIdxIfInBounds i id }
  | none => f

/-- Adds characters to a text. -/
def extend (id : Nat) (s : String) (f : Forest) : Forest :=
  f.change id fun e =>
    match e.kind with
    | .text t => { e with kind := .text (t ++ s) }
    | _       => e

/-- Puts characters last below a node; they go on a text that stands last. -/
def appendText (parent : Nat) (s : String) (f : Forest) : Forest :=
  match (f.children parent).back? with
  | some last =>
    if f.isText last then f.extend last s
    else let (id, f) := f.add (.text s); f.append parent id
  | none => let (id, f) := f.add (.text s); f.append parent id

/-- Puts characters before a node; they go on a text that stands before it. -/
def insertText (sibling : Nat) (s : String) (f : Forest) : Forest :=
  match f.parent? sibling with
  | none   => f
  | some p =>
    let i := f.indexIn p sibling
    match if i = 0 then none else (f.children p)[i - 1]? with
    | some before =>
      if f.isText before then f.extend before s
      else let (id, f) := f.add (.text s); f.insertBefore sibling id
    | none => let (id, f) := f.add (.text s); f.insertBefore sibling id

/-- Moves the children of a node to the end of another. -/
def moveChildren (source target : Nat) (f : Forest) : Forest :=
  (f.children source).foldl (fun f id => f.append target id) f

/-- The tree of a node; `depth` bounds how deep it nests. -/
def node? (f : Forest) : Nat → Nat → Option Node
  | 0,         _  => none
  | depth + 1, id =>
    match f[id]? with
    | none   => none
    | some e =>
      match e.kind with
      | .page      => none
      | .text s    => some (.text s)
      | .comment s => some (.comment s)
      | .element t => some (.element t (e.children.toList.filterMap (node? f depth)))

end Forest
end Scrape.Html
