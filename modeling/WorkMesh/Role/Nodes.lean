import WorkMesh.Role.Manager
import WorkMesh.StateMachine.Table

/-!
# The list of nodes

The control plane keeps the nodes by their identifier and routes to them. Four requests
change the list: each writes the change into memory and saves the whole list after that,
into the table `role_nodes` or into a file. None of them takes the change back when the
save fails, so the change stays in force until the process ends.

## Implementation notes

A save that fails leaves the table or the file as it was: a transaction is rolled back, a
file is replaced by a rename at the end. `parse` is `url.Parse`, and a `float64` is given by
its bits. The iteration over the map, which decides among several nodes of one number, is an
argument.
-/

namespace WorkMesh.Role

open StateMachine
open Encoding (Bytes bytes)
open AgentTeam (trimSpace)

@[ext] structure NodeListItem where
  id : Int := 0
  nodeID : String := ""
  name : String := ""
  addr : String := ""
  version : String := ""
  isXpack : Bool := false
  isBound : Bool := false
  displayName : String := ""
  role : String := ""
  status : String := ""
  endpoint : String := ""
  description : String := ""
  systemVersion : String := ""
  securityEntrance : String := ""
  cpuUsedPercent : UInt64 := 0
  cpuTotal : Int := 0
  memoryTotal : Int := 0
  memoryUsedPercent : UInt64 := 0
  isFavorite : Bool := false
  isCurrent : Bool := false
deriving DecidableEq

/-- A row of `role_nodes`, without the time of its writing. -/
structure NodeRow where
  nodeID : String
  id : Int
  name : String
  addr : String
  endpoint : String
  role : String
  status : String
  description : String
  isFavorite : Int
deriving DecidableEq

def boolIntRole (value : Bool) : Int := if value then 1 else 0

def NodeListItem.row (item : NodeListItem) : NodeRow where
  nodeID := item.nodeID
  id := item.id
  name := item.name
  addr := item.addr
  endpoint := item.endpoint
  role := item.role
  status := item.status
  description := item.description
  isFavorite := boolIntRole item.isFavorite

/-- Where the list is saved. -/
inductive NodeStore where
  | file (items : Option (List NodeListItem))
  | sqlite (rows : List NodeRow)

structure RoleController where
  nodes : Table String NodeListItem
  store : NodeStore

/-- What a request comes to. -/
inductive Reply where
  | refused (message : String)
  | failed (err : String)
  | done
deriving DecidableEq

/-- `hash/fnv`, 32 bit, variant a. -/
def fnv32a (text : Bytes) : UInt32 :=
  text.foldl (fun hash c => (hash ^^^ c.toUInt32) * 16777619) 2166136261

def nodeNumericID (nodeID : String) : Int :=
  let id := ((fnv32a (bytes nodeID)) &&& 0x7fffffff).toNat
  if id = 0 then 1 else id

namespace RoleController

variable (c : RoleController)

/-- The nodes in the order of their numbers. -/
def items : List NodeListItem := c.nodes.values.mergeSort fun a b => decide (a.id ≤ b.id)

def persistNodes (saveErr : Option String) : RoleController × Option String :=
  match saveErr with
  | some err => (c, some err)
  | none =>
      match c.store with
      | .file _ => ({ c with store := .file (some c.items) }, none)
      | .sqlite _ => ({ c with store := .sqlite (c.items.map NodeListItem.row) }, none)

/-- The end of every request: the list is changed, and then it is saved. -/
def change (nodes : Table String NodeListItem) (saveErr : Option String) : RoleController × Reply :=
  let saved := persistNodes { c with nodes } saveErr
  match saved.2 with
  | some err => (saved.1, .failed err)
  | none => (saved.1, .done)

/-! ## Adding -/

structure AddRequest where
  id : String := ""
  nodeID : String := ""
  name : String := ""
  addr : String := ""
  endpoint : String := ""
  role : String := ""
  description : String := ""

/-- What the check of an address reads of a URL. -/
structure ParsedURL where
  scheme : String
  host : String
  hasUser : Bool

def orElseText (text other : String) : String := if text = "" then other else text

/-- The node that a request adds, or the reason why it adds none. -/
def newNode (parse : String → Option ParsedURL) (r : AddRequest) : Except String NodeListItem :=
  let nodeID := orElseText (trimSpace r.nodeID) (orElseText (trimSpace r.id) (trimSpace r.name))
  if nodeID = "" ∨ trimSpace r.addr = "" ∧ trimSpace r.endpoint = "" then
    .error "节点 ID 和地址不能为空"
  else
  let nodeRole := orElseText r.role secondary
  if !validRole nodeRole then .error "节点角色必须为 primary 或 secondary"
  else
  let addr := orElseText (trimSpace r.addr) (trimSpace r.endpoint)
  let accepted := (parse addr).any fun url =>
    (url.scheme = "http" || url.scheme = "https") && url.host ≠ "" && !url.hasUser
  if !accepted || addr.toList.any fun ch => ch = '\r' || ch = '\n' then
    .error "节点地址必须是无用户信息的 HTTP(S) URL"
  else
  let name := orElseText (trimSpace r.name) nodeID
  if nodeID ∈ c.nodes then .error "节点已存在"
  else .ok
    { id := nodeNumericID nodeID, nodeID, name, displayName := name, addr, endpoint := addr
      role := nodeRole, version := "workmesh-server", status := "registered" }

def addNode (parse : String → Option ParsedURL) (r : AddRequest) (saveErr : Option String) :
    RoleController × Reply :=
  match c.newNode parse r with
  | .error message => (c, .refused message)
  | .ok item => c.change (c.nodes.insert item.nodeID item) saveErr

/-! ## Updating -/

/-- The identifier of an update, as it is written, `none` if it is refused for it. -/
def updateKey (r : NodeListItem) : Option String :=
  if trimSpace r.nodeID = "" ∧ trimSpace r.name = "" then none
  else some (orElseText r.nodeID r.name)

/-- What an update makes of a node: what it leaves blank stays, and so does the role unless it
names one. -/
def updatedItem (item r : NodeListItem) : NodeListItem :=
  { item with
    name := if r.name ≠ "" then r.name else item.name
    displayName := if r.name ≠ "" then r.name else item.displayName
    addr := if r.addr ≠ "" then r.addr else item.addr
    endpoint := if r.addr ≠ "" then r.addr else item.endpoint
    status := if r.status ≠ "" then r.status else item.status
    role := if validRole r.role then r.role else item.role }

def updateNode (r : NodeListItem) (saveErr : Option String) : RoleController × Reply :=
  match updateKey r with
  | none => (c, .refused "节点 ID 不能为空")
  | some nodeID =>
  match c.nodes.lookup nodeID with
  | none => (c, .refused "节点不存在")
  | some item => c.change (c.nodes.insert nodeID (updatedItem item r)) saveErr

/-- The node that a request deletes, never the one that the manager stands for. -/
def deleteNode (nodeID name current : String) (saveErr : Option String) : RoleController × Reply :=
  let nodeID := orElseText (trimSpace nodeID) (trimSpace name)
  if nodeID = "" ∨ nodeID = current then (c, .refused "不能删除当前节点")
  else if nodeID ∈ c.nodes then c.change (c.nodes.erase nodeID) saveErr
  else (c, .refused "节点不存在")

/-! ## Marking -/

structure FavoriteRequest where
  id : Int := 0
  nodeID : String := ""
  isFavorite : Bool := false

/-- The first node, as the map is gone through, of that name or number. -/
def chosen (r : FavoriteRequest) (order : List String) : Option (String × NodeListItem) :=
  order.findSome? fun key =>
    ((c.nodes.lookup key).filter fun item =>
      (r.nodeID ≠ "" && key = r.nodeID) || (r.id ≠ 0 && item.id = r.id)).map fun item => (key, item)

def favorite (r : FavoriteRequest) (order : List String) (saveErr : Option String) :
    RoleController × Reply :=
  match c.chosen r order with
  | none => (c, .refused "节点不存在")
  | some (key, item) =>
      let nodes := c.nodes.insert key { item with isFavorite := r.isFavorite }
      -- a node without a name is marked and reported as missing
      if key = "" then ({ c with nodes }, .refused "节点不存在") else c.change nodes saveErr

end RoleController

/-- A request that changes the list. -/
inductive NodeRequest where
  | unreadable (message : String)
  | add (r : RoleController.AddRequest)
  | update (r : NodeListItem)
  | delete (nodeID name current : String)
  | favorite (r : RoleController.FavoriteRequest) (order : List String)

def RoleController.handle (c : RoleController) (parse : String → Option RoleController.ParsedURL)
    (request : NodeRequest) (saveErr : Option String) : RoleController × Reply :=
  match request with
  | .unreadable message => (c, .refused message)
  | .add r => c.addNode parse r saveErr
  | .update r => c.updateNode r saveErr
  | .delete nodeID name current => c.deleteNode nodeID name current saveErr
  | .favorite r order => c.favorite r order saveErr

/-- What is saved is the list in memory: all of it in a file, the columns of the table in the
database. -/
def RoleController.Persisted (c : RoleController) : Prop :=
  match c.store with
  | .file saved => ∃ items, saved = some items ∧ items.Perm c.nodes.values
  | .sqlite rows => rows.Perm (c.nodes.values.map NodeListItem.row)

/-- A node has every value that an update sets. -/
structure Agrees (item r : NodeListItem) : Prop where
  name : r.name ≠ "" → item.name = r.name ∧ item.displayName = r.name
  addr : r.addr ≠ "" → item.addr = r.addr ∧ item.endpoint = r.addr
  status : r.status ≠ "" → item.status = r.status
  role : validRole r.role = true → item.role = r.role

/-- The request changes nothing: it is refused, or what it asks for is there already. -/
def RoleController.Idle (c : RoleController) (parse : String → Option ParsedURL) :
    NodeRequest → Prop
  | .unreadable _ => True
  | .add r => ∀ item, c.newNode parse r ≠ .ok item
  | .update r => ∀ nodeID item, updateKey r = some nodeID → c.nodes.lookup nodeID = some item →
      Agrees item r
  | .delete nodeID name current =>
      let nodeID := orElseText (trimSpace nodeID) (trimSpace name)
      nodeID = "" ∨ nodeID = current ∨ nodeID ∉ c.nodes
  | .favorite r order => ∀ key item, c.chosen r order = some (key, item) →
      key = "" ∨ item.isFavorite = r.isFavorite

section Change
variable {c : RoleController} {nodes : Table String NodeListItem} {saveErr : Option String}

theorem items_perm (c : RoleController) : c.items.Perm c.nodes.values :=
  List.mergeSort_perm _ _

/-- A change whose save fails stays in memory. -/
theorem change_failed (message : String) :
    c.change nodes (some message) = ({ c with nodes }, .failed message) := by
  rfl

/-- A change whose save succeeds is what was saved. -/
theorem change_done (c : RoleController) (nodes : Table String NodeListItem) :
    (c.change nodes none).2 = .done ∧ (c.change nodes none).1.Persisted := by
  cases hstore : c.store with
  | file saved =>
      simp only [RoleController.change, RoleController.persistNodes, hstore]
      exact ⟨trivial, _, rfl, items_perm _⟩
  | sqlite rows =>
      simp only [RoleController.change, RoleController.persistNodes, hstore]
      exact ⟨trivial, (items_perm _).map _⟩

/-- What a request is to keep: memory if its save fails, the agreement if it succeeds. -/
def Atomic (c : RoleController) (after : RoleController × Reply) : Prop :=
  (∀ err, after.2 = .failed err → ∀ key, after.1.nodes.lookup key = c.nodes.lookup key) ∧
    (after.2 = .done → after.1.Persisted)

theorem atomic_refused (c after : RoleController) (message : String) :
    Atomic c (after, .refused message) := by
  constructor
  · intro err h
    cases h
  · intro h
    cases h

/-- A change is atomic exactly if it is saved or shows nowhere. -/
theorem atomic_change_iff (c : RoleController) (nodes : Table String NodeListItem)
    (saveErr : Option String) :
    Atomic c (c.change nodes saveErr) ↔
      (saveErr ≠ none → ∀ key, nodes.lookup key = c.nodes.lookup key) := by
  cases saveErr with
  | none =>
      obtain ⟨hdone, hpersisted⟩ := change_done c nodes
      refine iff_of_true ⟨?_, fun _ => hpersisted⟩ (fun h => absurd rfl h)
      intro err herr
      rw [hdone] at herr
      cases herr
  | some message =>
      rw [change_failed]
      constructor
      · intro h _
        exact h.1 message rfl
      · intro h
        exact ⟨fun _ _ => h (Option.some_ne_none message), fun hdone => by cases hdone⟩

end Change

section Requests
variable (c : RoleController) (saveErr : Option String)

/-- An added node was not there. -/
theorem newNode_fresh {parse : String → Option RoleController.ParsedURL}
    {r : RoleController.AddRequest} {item : NodeListItem} (h : c.newNode parse r = .ok item) :
    c.nodes.lookup item.nodeID = none := by
  simp only [RoleController.newNode] at h
  split_ifs at h with hblank hrole haddr hknown
  rw [← Except.ok.inj h]
  exact AList.lookup_eq_none.mpr hknown

theorem addNode_atomic_iff (parse : String → Option RoleController.ParsedURL)
    (r : RoleController.AddRequest) :
    Atomic c (c.addNode parse r saveErr) ↔
      (saveErr ≠ none → ∀ item, c.newNode parse r ≠ .ok item) := by
  simp only [RoleController.addNode]
  cases hnew : c.newNode parse r with
  | error message =>
      refine iff_of_true (atomic_refused c c message) ?_
      intro _ item heq
      cases heq
  | ok item =>
      rw [atomic_change_iff, Table.lookup_insert_eq_iff]
      apply imp_congr_right
      intro _
      constructor
      · intro hlookup
        rw [newNode_fresh c hnew] at hlookup
        cases hlookup
      · intro hnone
        exact absurd rfl (hnone item)

theorem updatedItem_eq_iff {item r : NodeListItem} :
    RoleController.updatedItem item r = item ↔ Agrees item r := by
  have hkeeps : ∀ (p : Prop) [Decidable p] (new old : String),
      (if p then new else old) = old ↔ (p → old = new) := by
    intro p _ new old
    rw [ite_eq_right_iff]
    exact imp_congr_right fun _ => eq_comm
  rw [NodeListItem.ext_iff]
  simp only [RoleController.updatedItem, hkeeps, true_and, and_true]
  constructor
  · rintro ⟨hname, haddr, hshown, hrole, hstatus, hendpoint⟩
    exact ⟨fun h => ⟨hname h, hshown h⟩, fun h => ⟨haddr h, hendpoint h⟩, hstatus, hrole⟩
  · intro h
    exact ⟨fun hset => (h.name hset).1, fun hset => (h.addr hset).1, fun hset => (h.name hset).2,
      h.role, h.status, fun hset => (h.addr hset).2⟩

theorem updateNode_atomic_iff (r : NodeListItem) :
    Atomic c (c.updateNode r saveErr) ↔ (saveErr ≠ none → ∀ nodeID item,
      RoleController.updateKey r = some nodeID → c.nodes.lookup nodeID = some item →
      Agrees item r) := by
  rw [RoleController.updateNode]
  cases hkey : RoleController.updateKey r with
  | none =>
      refine iff_of_true (atomic_refused c c _) ?_
      intro _ nodeID item heq
      cases heq
  | some nodeID =>
      have hnamed : (∀ key item, some nodeID = some key → c.nodes.lookup key = some item →
          Agrees item r) ↔ ∀ item, c.nodes.lookup nodeID = some item → Agrees item r := by
        constructor
        · intro h item
          exact h nodeID item rfl
        · rintro h key item ⟨⟩
          exact h item
      rw [hnamed]
      simp only
      cases hlookup : c.nodes.lookup nodeID with
      | none =>
          refine iff_of_true (atomic_refused c c _) ?_
          intro _ item heq
          cases heq
      | some item =>
          simp only [Option.some.injEq, forall_eq']
          rw [atomic_change_iff, Table.lookup_insert_eq_iff, hlookup, Option.some.injEq, eq_comm,
            updatedItem_eq_iff]

theorem deleteNode_atomic_iff (nodeID name current : String) :
    Atomic c (c.deleteNode nodeID name current saveErr) ↔ (saveErr ≠ none →
      let nodeID := RoleController.orElseText (trimSpace nodeID) (trimSpace name)
      nodeID = "" ∨ nodeID = current ∨ nodeID ∉ c.nodes) := by
  simp only [RoleController.deleteNode]
  generalize RoleController.orElseText (trimSpace nodeID) (trimSpace name) = key
  split_ifs with hrefused hknown
  · exact iff_of_true (atomic_refused c c _) fun _ => hrefused.imp_right .inl
  · rw [atomic_change_iff]
    apply imp_congr_right
    intro _
    constructor
    · intro hsame
      have hgone := hsame key
      rw [AList.lookup_erase] at hgone
      exact .inr (.inr (AList.lookup_eq_none.mp hgone.symm))
    · rintro (hblank | hcurrent | hmissing)
      · exact absurd (.inl hblank) hrefused
      · exact absurd (.inr hcurrent) hrefused
      · exact absurd hknown hmissing
  · exact iff_of_true (atomic_refused c c _) fun _ => .inr (.inr hknown)

/-- The chosen node is in the list. -/
theorem chosen_lookup {r : RoleController.FavoriteRequest} {order : List String} {key : String}
    {item : NodeListItem} (h : c.chosen r order = some (key, item)) :
    c.nodes.lookup key = some item := by
  obtain ⟨held, -, hheld⟩ := List.exists_of_findSome?_eq_some h
  obtain ⟨found, hfound, heq⟩ := Option.map_eq_some_iff.mp hheld
  obtain ⟨rfl, rfl⟩ := Prod.mk.inj heq
  exact (Option.filter_eq_some_iff.mp hfound).1

theorem favorite_atomic_iff (r : RoleController.FavoriteRequest) (order : List String) :
    Atomic c (c.favorite r order saveErr) ↔ (saveErr ≠ none → ∀ key item,
      c.chosen r order = some (key, item) → key = "" ∨ item.isFavorite = r.isFavorite) := by
  simp only [RoleController.favorite]
  cases hchosen : c.chosen r order with
  | none =>
      refine iff_of_true (atomic_refused c c _) ?_
      intro _ key item heq
      cases heq
  | some found =>
      obtain ⟨key, item⟩ := found
      simp only [Option.some.injEq, Prod.mk.injEq, and_imp, forall_apply_eq_imp_iff, forall_eq']
      split_ifs with hkey
      · exact iff_of_true (atomic_refused c _ _) fun _ => .inl hkey
      · rw [atomic_change_iff, Table.lookup_insert_eq_iff, chosen_lookup c hchosen]
        apply imp_congr_right
        intro _
        constructor
        · intro heq
          exact .inr (congrArg NodeListItem.isFavorite (Option.some.inj heq))
        · rintro (hblank | hsame)
          · exact absurd hblank hkey
          · rw [← hsame]

end Requests

/-- A request keeps memory when its save fails, and leaves memory and store in agreement when
it succeeds, exactly if it is saved or has nothing to change. -/
theorem node_request_atomic_iff (c : RoleController)
    (parse : String → Option RoleController.ParsedURL) (request : NodeRequest)
    (saveErr : Option String) :
    Atomic c (c.handle parse request saveErr) ↔ (saveErr ≠ none → c.Idle parse request) := by
  cases request with
  | unreadable message => exact iff_of_true (atomic_refused c c message) fun _ => trivial
  | add r => exact addNode_atomic_iff c saveErr parse r
  | update r => exact updateNode_atomic_iff c saveErr r
  | delete nodeID name current => exact deleteNode_atomic_iff c saveErr nodeID name current
  | favorite r order => exact favorite_atomic_iff c saveErr r order

/-- A list of one node, saved in a file. -/
def oneNode : RoleController :=
  let node : NodeListItem := { id := 1, nodeID := "n", addr := "http://a", endpoint := "http://a" }
  ⟨AList.singleton "n" node, .file (some [node])⟩

/-- The address of a node is changed and the save fails: the refused address is in force. -/
theorem failed_update_in_force :
    let after := oneNode.handle (fun _ => none) (.update { nodeID := "n", addr := "http://b" })
      (some "database is locked")
    (oneNode.nodes.lookup "n").map NodeListItem.addr = some "http://a" ∧
      after.2 = .failed "database is locked" ∧
      (after.1.nodes.lookup "n").map NodeListItem.addr = some "http://b" := by
  decide +kernel

end WorkMesh.Role
