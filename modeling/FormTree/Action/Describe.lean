import FormTree.Action.Basic
import FormTree.Text.Quoted

/-!
# Descriptions of actions

One line for people that says what an action does and with which data.  Host code shows as `<fn>`.
-/

namespace FormTree

namespace Data

mutual

/-- A description of form data that names the sort of every node. -/
def describe : Data → String
  | .null => "Null"
  | .bool true => "Bool(true)"
  | .bool false => "Bool(false)"
  | .number n => "Number(Number(" ++ n.text ++ "))"
  | .string s => "String(" ++ Text.quoted s ++ ")"
  | .list items => "List(" ++ Text.bracketed (describeItems items) ++ ")"
  | .map entries => "Map(\x7b" ++ ", ".intercalate (describeEntries entries) ++ "\x7d)"

/-- The descriptions of items. -/
def describeItems : List Data → List String
  | [] => []
  | item :: rest => describe item :: describeItems rest

/-- The descriptions of entries. -/
def describeEntries : List (String × Data) → List String
  | [] => []
  | (key, child) :: rest => (Text.quoted key ++ ": " ++ describe child) :: describeEntries rest

end

end Data

/-- A description of an update. -/
def Update.describe {κ : Type} : Update κ → String
  | .fixed value => "Value(" ++ value.describe ++ ")"
  | .computed _ => "With(<fn>)"

namespace Action

variable {κ : Type}

/-- What an action carries besides its path: a label and a description. -/
def detail? : Action κ → Option (String × String)
  | .editField _ update => some ("update", update.describe)
  | .validateField _ (some errors) =>
    some ("errors", "Some(" ++ Text.bracketed (errors.map Text.quoted) ++ ")")
  | .validateField _ none => some ("errors", "None")
  | .editItems .many _ update => some ("contents", update.describe)
  | .editItems .childForms _ update => some ("children", update.describe)
  | .reorderItems _ _ order => some ("order", orderText order)
  | .addChildForm _ form => some ("form", form.describe)
  | .custom _ payload => some ("payload", payload.describe)
  | _ => none

/-- A description of an action: its kind, its path and what it carries. -/
def describe (action : Action κ) : String :=
  let kind := "kind: " ++ Text.quoted action.kindName
  let path := action.path?.map fun path => "path: [" ++ path.text ++ "]"
  let detail := action.detail?.map fun (label, text) => label ++ ": " ++ text
  "Action \x7b " ++ ", ".intercalate (kind :: path.toList ++ detail.toList) ++ " \x7d"

end Action

end FormTree
