import GpuiAgent.Framework.RustString
import GpuiAgent.Tree.UiTree

namespace GpuiAgent

open Framework Framework.RoseTree

def MAX_VALUE_CHARS : Nat := 200

def isPassword (a : NodeFields) : Bool := a.role = "password" || a.states.contains "password"

/-- The flags of a node in the compact format. -/
def compactFlags (a : NodeFields) : List String :=
  (if a.checked = some true then ["checked"] else []) ++
  (if a.enabled then [] else ["disabled"]) ++
  (if a.focused then ["focused"] else []) ++
  match a.value with
  | some value =>
    if isPassword a then []
    else
      let chars := value.toList
      let shown := chars.take MAX_VALUE_CHARS ++ if MAX_VALUE_CHARS < chars.length then ['…'] else []
      ["value=\"" ++ replace (.ofList shown) "\"" "'" ++ "\""]
  | none => []

def compactLine (a : NodeFields) (depth : Nat) : String :=
  let flags := compactFlags a
  "".intercalate (List.replicate depth "  ") ++ a.id ++ " " ++ a.role ++ " \"" ++
    replace a.name "\"" "'" ++ "\"" ++
    (if flags.isEmpty then "" else "  [" ++ "|".intercalate flags ++ "]") ++ "\n"

mutual
def compactNode (depth : Nat) : UiNode → String
  | node a cs => if a.visible then compactLine a depth ++ compactNodes (depth + 1) cs else ""
/-- One line per visible node, indented by depth. -/
def compactNodes (depth : Nat) : List UiNode → String
  | [] => ""
  | n :: ns => compactNode depth n ++ compactNodes depth ns
end

def compactLines (t : UiTree) : String := compactNodes 0 t.nodes

end GpuiAgent
