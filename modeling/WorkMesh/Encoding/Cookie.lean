import WorkMesh.Encoding.Header

/-!
# Cookies, hosts and letters

What a server reads of the cookies and of the host of a request, and the
comparisons of `strings` that leave the case of a letter aside.
-/

namespace Encoding

/-! ## Cookies -/

/-- `textproto.TrimString`. -/
def trimString (text : Bytes) : Bytes :=
  let isSpace := fun c : UInt8 => c = 32 ∨ c = 9 ∨ c = 10 ∨ c = 13
  (text.dropWhile (isSpace ·)).rdropWhile (isSpace ·)

/-- `parseCookieValue`, with the quotes taken off. -/
def parseCookieValue (raw : Bytes) : Option Bytes :=
  let value :=
    if 1 < raw.length ∧ raw.head? = some 34 ∧ raw.getLast? = some 34 then raw.tail.dropLast else raw
  if value.all fun c => 0x20 ≤ c && c < 0x7f && c ≠ 34 && c ≠ 59 && c ≠ 92 then some value else none

/-- `Request.Cookie` for a name that is a token: the first cookie of that name with a valid value. -/
def Header.cookie (header : Header) (name : Bytes) : Option Bytes :=
  (((header.lookup "Cookie").getD []).flatMap fun line => (trimString line).splitOn 59).findSome?
    fun part =>
      let part := trimString part
      if trimString (part.takeWhile (· ≠ 61)) = name then
        parseCookieValue (part.dropWhile (· ≠ 61)).tail
      else none

/-! ## Letters -/

def lowerLetter (c : UInt8) : UInt8 := if 65 ≤ c ∧ c ≤ 90 then c + 32 else c

/-- `strings.ToLower` as far as its result is ASCII: besides the letters the Kelvin sign and
the capital i with a dot. -/
def toLower : Bytes → Bytes
  | c :: d :: e :: rest =>
      if c = 0xe2 ∧ d = 0x84 ∧ e = 0xaa then 107 :: toLower rest
      else if c = 0xc4 ∧ d = 0xb0 then 105 :: toLower (e :: rest)
      else lowerLetter c :: toLower (d :: e :: rest)
  | [c, d] => if c = 0xc4 ∧ d = 0xb0 then [105] else [lowerLetter c, lowerLetter d]
  | rest => rest.map lowerLetter

/-- A text with the letters that fold to ASCII folded: the long s as well. -/
def foldCase : Bytes → Bytes
  | 0xe2 :: 0x84 :: 0xaa :: rest => 107 :: foldCase rest
  | 0xc5 :: 0xbf :: rest => 115 :: foldCase rest
  | c :: rest => lowerLetter c :: foldCase rest
  | [] => []

/-- `strings.EqualFold` where one of the texts is ASCII. -/
def equalFold (s t : Bytes) : Bool := foldCase s = foldCase t

def trimSuffix (text mark : Bytes) : Bytes :=
  if mark.isSuffixOf text then text.take (text.length - mark.length) else text

/-- `strings.Trim` with a slash. -/
def trimSlash (text : Bytes) : Bytes := (text.dropWhile (· = 47)).rdropWhile (· = 47)

/-- The host that `net.SplitHostPort` splits off, `none` for an error. -/
def splitHostPort (hostport : Bytes) : Option Bytes :=
  if 58 ∉ hostport then none
  else
    let port := (hostport.reverse.takeWhile (· ≠ 58)).reverse
    let front := hostport.take (hostport.length - port.length - 1)
    if hostport.head? = some 91 then
      let host := front.tail.takeWhile (· ≠ 93)
      let behind := front.tail.drop host.length
      if behind = [93] ∧ 91 ∉ host ∧ 91 ∉ port ∧ 93 ∉ port then some host else none
    else if 58 ∉ front ∧ 91 ∉ hostport ∧ 93 ∉ hostport then some front
    else none

end Encoding
