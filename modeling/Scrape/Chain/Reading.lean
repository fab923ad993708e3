import Scrape.Address.Parser
import Scrape.Chain.Step
import Scrape.Html.Unscripted
import Scrape.Options

/-!
# Chain — Reading

What a chain reads from the nodes it has selected: a text, the element as it is written, a link or
any attribute.
-/

namespace Scrape.Chain

open Scrape.Text (asciiLower startsWith trim)

/-- What is read from a node. -/
inductive Reading where
  | text
  | textNodes
  | ownText
  /-- The element as it is written, without scripts and styles. -/
  | html
  /-- The element as it is written. -/
  | all
  | href
  | src
  | attr (name : String)
  deriving DecidableEq

namespace Reading

/-- The readings that have a name of their own. -/
def named : List (String × Reading) :=
  [("text", text), ("textNodes", textNodes), ("ownText", ownText), ("html", html), ("all", all),
   ("href", href), ("src", src)]

/-- The reading with a name of its own. -/
def ofName? (name : List Char) : Option Reading :=
  (named.find? fun p => p.1 == String.ofList name).map Prod.snd

/-- The reading of a name, which is that of an attribute if it is no name of its own. -/
def ofName (name : List Char) : Reading :=
  (ofName? name).getD (.attr (String.ofList name))

/-- Whether the reading is that of a link. -/
def isLink : Reading → Bool
  | href => true
  | src  => true
  | _    => false

end Reading

/-- The attributes that hold the address of a picture which is loaded late. -/
def lateSources : List String :=
  ["data-src", "data-original", "data-lazy-src", "data-echo", "original"]

/-- The texts of links that are mere navigation. -/
def navigationTexts : List String :=
  ["home", "search", "login", "log in", "sign in", "register", "首页", "搜索", "登录", "注册"]

/-- Whether the text is that of a link of mere navigation. -/
def isNavigation (text : String) : Bool :=
  navigationTexts.contains (String.ofList (Text.lower (trim text.toList)))

/-- Whether the link leads nowhere. -/
def leadsNowhere (link : List Char) : Bool :=
  link.isEmpty || link.head? = some '#' || startsWith "javascript:".toList (asciiLower link)

/-- A link as it is given out, made absolute if it can be. -/
def link? (options : Options) (raw : String) : Option String :=
  let link := trim raw.toList
  if options.noiseFilter && leadsNowhere link then none
  else
    match options.baseUrl? with
    | none      => some (String.ofList link)
    | some base => some (String.ofList ((Address.join? base.toList link).getD link))

/-- The address of a picture. -/
def source? (n : Node) : Option String :=
  ((lateSources.filterMap n.attr?).find? fun v => !Text.allBlank v.toList).or (n.attr? "src")

/-- The text of a node, unless it is a link of mere navigation and such links are left out. -/
def readText? (options : Options) (n : Node) : Option String :=
  if options.noiseFilter && n.tagName? == some "a" && isNavigation n.text then none else some n.text

/-- What is read from a node, if anything. -/
def Reading.read? (options : Options) (n : Node) : Reading → Option String
  | text      => readText? options n
  | textNodes => some ("\n".intercalate n.textNodes)
  | ownText   => some n.ownText
  | html      => some (String.ofList (Html.unscripted n.outer.toList))
  | all       => some n.outer
  | href      => (n.attr? "href").bind (link? options)
  | src       => (source? n).bind (link? options)
  | attr name => n.attr? name

end Scrape.Chain
