import WorkMesh.Encoding.Address

/-!
# The rules of the panel

A rule of the firewall as the service keeps it, and the check that every rule
passes before it is stored.
-/

namespace WorkMesh.Waf

open Encoding

/-- `model.WAFRule`. -/
structure WAFRule where
  id : Bytes := []
  name : Bytes := []
  location : Bytes := []
  key : Bytes := []
  operator : Bytes := []
  value : Bytes := []
  action : Bytes := []
  priority : ℤ := 0
  enabled : Bool := false
deriving DecidableEq

def validLocations : List Bytes :=
  ["ip", "ipGroup", "ip-group", "uri", "args", "header", "cookie", "method", "body"].map bytes

def validOperators : List Bytes :=
  ["contains", "regex", "equals", "ip-cidr", "ip-group"].map bytes

def validActions : List Bytes := ["allow", "log", "block"].map bytes

/-- `strings.ContainsAny` with the characters that end a line or a text. -/
def breaksLine (text : Bytes) : Bool := text.any fun c => c = 0 || c = 13 || c = 10

/-- `validateWAFRule`, where `compiles` tells what `regexp.Compile` accepts and `newID` is the
identifier made from the time. -/
def validateWAFRule (compiles : Bytes → Bool) (newID : Bytes) (rule : WAFRule) :
    Except String WAFRule :=
  let rule := { rule with
    name := trimSpace rule.name
    location := trimSpace rule.location
    key := trimSpace rule.key
    operator := trimSpace rule.operator
    action := trimSpace rule.action }
  if trimSpace rule.name = [] ∨ 120 < rule.name.length ∨ trimSpace rule.value = [] ∨
      2048 < rule.value.length then .error "WAF 规则名称和值无效"
  else if rule.location ∉ validLocations ∨ rule.operator ∉ validOperators ∨
      rule.action ∉ validActions then .error "WAF 规则字段无效"
  else if 256 < rule.key.length ∨ breaksLine rule.key = true then .error "WAF 规则字段名无效"
  else
  let rule := if rule.priority ≤ 0 then { rule with priority := 100 } else rule
  if 10000 < rule.priority then .error "WAF 规则优先级无效"
  else if rule.operator = bytes "regex" ∧ 256 < rule.value.length then
    .error "正则表达式长度不能超过 256"
  else if rule.operator = bytes "regex" ∧ compiles rule.value = false then .error "正则表达式无效"
  else if rule.operator = bytes "ip-cidr" ∧ isNetwork rule.value = false then .error "IP 网段无效"
  else
  let rule := if trimSpace rule.id = [] then { rule with id := newID } else rule
  if 128 < rule.id.length ∨ breaksLine rule.id = true then .error "WAF 规则 ID 无效"
  else .ok rule

end WorkMesh.Waf
