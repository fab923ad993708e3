import Scrape.Html.Build.Body

/-!
# Html — Build — Table

The rules for tokens in tables and in selections.
-/

namespace Scrape.Html.Build

/-- Lets a token follow the rules of the body; what it inserts right into a table is put before the
table. -/
def foster (token : Token) : Build Next := do
  modify fun b => { b with fosters := true }
  let next ← bodyRules token
  modify fun b => { b with fosters := false }
  return next

/-- Closes open elements up to a table. -/
def backToTable : Build Unit := popWhile (!boundsTableScope ·)

/-- Closes open elements up to a section of a table. -/
def backToSection : Build Unit :=
  popWhile (!·.isOneOf ["tbody", "tfoot", "thead", "template", "html"])

/-- Closes open elements up to a row of a table. -/
def backToRow : Build Unit := popWhile (!·.isOneOf ["tr", "template", "html"])

/-- The rules of tables for characters. -/
def tableText (token : Token) : Build Next := do
  if ← currentIs tableNames then
    modify fun b => { b with returnMode := b.mode, tableText := [] }
    again .inTableText token
  else foster token

/-- The rules of tables. -/
def tableRules (token : Token) : Build Next := do
  match token with
  | .blanks _  => tableText token
  | .text _    => tableText token
  | .null      => tableText token
  | .comment s => insertComment s; return .done
  | .start t   =>
    match t.name with
    | "caption" =>
      backToTable
      markFormatting
      insert t
      setMode .inCaption
      return .done
    | "colgroup" =>
      backToTable
      insert t
      setMode .inColumnGroup
      return .done
    | "col" =>
      backToTable
      insertNamed "colgroup"
      again .inColumnGroup token
    | "tbody" | "tfoot" | "thead" =>
      backToTable
      insert t
      setMode .inTableBody
      return .done
    | "td" | "th" | "tr" =>
      backToTable
      insertNamed "tbody"
      again .inTableBody token
    | "table" =>
      if ← hasOpenInTable "table" then
        popNamed "table"
        resetMode
        return .again token
      return .done
    | "style" | "script" | "template" => headRules token
    | "input" =>
      if t.attrs.any fun a => a.1 == "type" && a.2.toLower == "hidden" then
        insertEmpty t
        return .done
      foster token
    | "form" =>
      if (← get).form?.isNone && !(← inTemplate) then
        openForm t
        pop
      return .done
    | _ => foster token
  | .close t =>
    match t.name with
    | "table" =>
      if ← hasOpenInTable "table" then
        popNamed "table"
        resetMode
      return .done
    | "template" => headRules token
    | "body" | "caption" | "col" | "colgroup" | "html" | "tbody" | "td" | "tfoot" | "th" | "thead"
    | "tr" => return .done
    | _ => foster token
  | .done => bodyRules token
  | _     => return .done

/-- Inserts the characters met in a table, of which the latest come first: right there if all are
blanks, and before the table otherwise. -/
def settleTableText : Build Unit := do
  let runs := (← get).tableText.reverse
  if runs.all Prod.fst then
    for (_, s) in runs do insertText s
  else
    for (blank, s) in runs do
      let _ ← foster (if blank then .blanks s else .text s)

/-- The rules for characters met in a table. -/
def tableTextRules (token : Token) : Build Next := do
  match token with
  | .null     => return .done
  | .blanks s => modify fun b => { b with tableText := (true, s) :: b.tableText }; return .done
  | .text s   => modify fun b => { b with tableText := (false, s) :: b.tableText }; return .done
  | token     =>
    settleTableText
    again (← get).returnMode token

/-- The names of the parts of tables, save rows. -/
def partNames : List String := ["caption", "col", "colgroup", "tbody", "td", "tfoot", "th", "thead"]

/-- The rules of captions. -/
def captionRules (token : Token) : Build Next := do
  let closeCaption : Build Bool := do
    if ← hasOpenInTable "caption" then
      closeImplied ""
      popNamed "caption"
      forgetFormatting
      setMode .inTable
      return true
    return false
  match token with
  | .start t =>
    if ("tr" :: partNames).contains t.name then
      if ← closeCaption then return .again token
      return .done
    bodyRules token
  | .close t =>
    match t.name with
    | "caption" => let _ ← closeCaption; return .done
    | "table" =>
      if ← closeCaption then return .again token
      return .done
    | "body" | "col" | "colgroup" | "html" | "tbody" | "td" | "tfoot" | "th" | "thead" | "tr" =>
      return .done
    | _ => bodyRules token
  | token => bodyRules token

/-- The rules of groups of columns. -/
def columnGroupRules (token : Token) : Build Next := do
  let otherwise : Build Next := do
    if ← currentIs ["colgroup"] then
      pop
      again .inTable token
    else return .done
  match token with
  | .blanks s  => insertText s; return .done
  | .comment s => insertComment s; return .done
  | .start t   =>
    match t.name with
    | "html"     => htmlStart t
    | "col"      => insertEmpty t; return .done
    | "template" => headRules token
    | _          => otherwise
  | .close t   =>
    match t.name with
    | "colgroup" =>
      if ← currentIs ["colgroup"] then
        pop
        setMode .inTable
      return .done
    | "col"      => return .done
    | "template" => headRules token
    | _          => otherwise
  | .done      => bodyRules token
  | .doctype _ => return .done
  | _          => otherwise

/-- The names of the sections of tables. -/
def sectionNames : List String := ["tbody", "tfoot", "thead"]

/-- The rules of sections of tables. -/
def sectionRules (token : Token) : Build Next := do
  let leave : Build Next := do
    if ← hasOneOpenInTable sectionNames then
      backToSection
      pop
      again .inTable token
    else return .done
  match token with
  | .start t =>
    match t.name with
    | "tr" =>
      backToSection
      insert t
      setMode .inRow
      return .done
    | "th" | "td" =>
      backToSection
      insertNamed "tr"
      again .inRow token
    | "caption" | "col" | "colgroup" | "tbody" | "tfoot" | "thead" => leave
    | _ => tableRules token
  | .close t =>
    match t.name with
    | "tbody" | "tfoot" | "thead" =>
      if ← hasOpenInTable t.name then
        backToSection
        pop
        setMode .inTable
      return .done
    | "table" => leave
    | "body" | "caption" | "col" | "colgroup" | "html" | "td" | "th" | "tr" => return .done
    | _ => tableRules token
  | token => tableRules token

/-- The rules of rows of tables. -/
def rowRules (token : Token) : Build Next := do
  let leave : Build Bool := do
    if ← hasOpenInTable "tr" then
      backToRow
      pop
      setMode .inTableBody
      return true
    return false
  match token with
  | .start t =>
    match t.name with
    | "th" | "td" =>
      backToRow
      insert t
      setMode .inCell
      markFormatting
      return .done
    | "caption" | "col" | "colgroup" | "tbody" | "tfoot" | "thead" | "tr" =>
      if ← leave then return .again token
      return .done
    | _ => tableRules token
  | .close t =>
    match t.name with
    | "tr" => let _ ← leave; return .done
    | "table" =>
      if ← leave then return .again token
      return .done
    | "tbody" | "tfoot" | "thead" =>
      if ← hasOpenInTable t.name then
        if ← leave then return .again token
      return .done
    | "body" | "caption" | "col" | "colgroup" | "html" | "td" | "th" => return .done
    | _ => tableRules token
  | token => tableRules token

/-- Closes the cell that is open. -/
def closeCell : Build Unit := do
  closeImplied ""
  popThrough (·.isOneOf ["td", "th"])
  forgetFormatting
  setMode .inRow

/-- The rules of cells of tables. -/
def cellRules (token : Token) : Build Next := do
  match token with
  | .start t =>
    if ("tr" :: partNames).contains t.name then
      if ← hasOneOpenInTable ["td", "th"] then
        closeCell
        return .again token
      return .done
    bodyRules token
  | .close t =>
    match t.name with
    | "td" | "th" =>
      if ← hasOpenInTable t.name then
        closeImplied ""
        popNamed t.name
        forgetFormatting
        setMode .inRow
      return .done
    | "body" | "caption" | "col" | "colgroup" | "html" => return .done
    | "table" | "tbody" | "tfoot" | "thead" | "tr" =>
      if ← hasOpenInTable t.name then
        closeCell
        return .again token
      return .done
    | _ => bodyRules token
  | token => bodyRules token

/-- Closes the selection that is open, if there is one. -/
def closeSelect : Build Bool := do
  if ← inScope boundsSelectScope (·.isNamed "select") then
    popNamed "select"
    resetMode
    return true
  return false

/-- The rules of selections. -/
def selectRules (token : Token) : Build Next := do
  match token with
  | .blanks s  => insertText s; return .done
  | .text s    => insertText s; return .done
  | .comment s => insertComment s; return .done
  | .start t   =>
    match t.name with
    | "html" => htmlStart t
    | "option" =>
      if ← currentIs ["option"] then pop
      insert t
      return .done
    | "optgroup" =>
      if ← currentIs ["option"] then pop
      if ← currentIs ["optgroup"] then pop
      insert t
      return .done
    | "hr" =>
      if ← currentIs ["option"] then pop
      if ← currentIs ["optgroup"] then pop
      insertEmpty t
      return .done
    | "select" => let _ ← closeSelect; return .done
    | "input" | "keygen" | "textarea" =>
      if ← closeSelect then return .again token
      return .done
    | "script" | "template" => headRules token
    | _ => return .done
  | .close t =>
    match t.name with
    | "optgroup" =>
      match ← openTags with
      | a :: b :: _ => if a.isNamed "option" && b.isNamed "optgroup" then pop
      | _           => pure ()
      if ← currentIs ["optgroup"] then pop
      return .done
    | "option" =>
      if ← currentIs ["option"] then pop
      return .done
    | "select" => let _ ← closeSelect; return .done
    | "template" => headRules token
    | _ => return .done
  | .done => bodyRules token
  | _     => return .done

/-- The rules of selections in tables: a part of the table ends the selection. -/
def selectInTableRules (token : Token) : Build Next := do
  let names := ["caption", "table", "tbody", "tfoot", "thead", "tr", "td", "th"]
  match token with
  | .start t =>
    if names.contains t.name then
      popNamed "select"
      resetMode
      return .again token
    selectRules token
  | .close t =>
    if names.contains t.name then
      if ← hasOpenInTable t.name then
        popNamed "select"
        resetMode
        return .again token
      return .done
    selectRules token
  | token => selectRules token

end Scrape.Html.Build
