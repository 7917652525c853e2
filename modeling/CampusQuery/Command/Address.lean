/-
CampusQuery/Command/Address.lean

Socket addresses: an IPv4 address or a bracketed IPv6 address, a colon and a port.

The readers take what they accept off the front of a text and return the rest.
-/
import CampusQuery.Json.Tree

namespace CampusQuery.SocketAddress

/-- A number of one to `maxDigits` digits, at most `greatest`. -/
def number? (base maxDigits greatest : Nat) (leadingZero : Bool) (cs : List Char) :
    Option (List Char) :=
  let isDigit (c : Char) : Bool := (Json.hexDigit? c).any (· < base)
  let digits := cs.takeWhile isDigit
  let value := digits.foldl (fun n c => base * n + (Json.hexDigit? c).getD 0) 0
  let fits := !digits.isEmpty && digits.length ≤ maxDigits && value ≤ greatest
  let plain := leadingZero || digits.length ≤ 1 || digits.head? != some '0'
  if fits && plain then some (cs.dropWhile isDigit) else none

/-- A given character. -/
def char? (c : Char) : List Char → Option (List Char)
  | d :: rest => if c = d then some rest else none
  | [] => none

/-- An IPv4 address: four numbers below 256, without leading zeros. -/
def ipv4? (cs : List Char) : Option (List Char) := do
  let octet := number? 10 3 255 false
  octet (← char? '.' (← octet (← char? '.' (← octet (← char? '.' (← octet cs))))))

/-- The colon before a group that is not the first. -/
def groupStart? (first : Bool) (cs : List Char) : Option (List Char) :=
  if first then some cs else char? ':' cs

/-- The groups of an IPv6 address, at most `limit`.  The last two may be an IPv4
address.  The result is the number of groups, whether they end so, and the rest. -/
def groups (first : Bool) : (limit : Nat) → List Char → Nat × Bool × List Char
  | 0, cs => (0, false, cs)
  | limit + 1, cs =>
    match (if limit = 0 then none else groupStart? first cs >>= ipv4?) with
    | some rest => (2, true, rest)
    | none =>
      match groupStart? first cs >>= number? 16 4 0xFFFF true with
      | some rest =>
        let (n, mixed, rest) := groups false limit rest
        (n + 1, mixed, rest)
      | none => (0, false, cs)

/-- An IPv6 address: eight groups, or fewer around a double colon. -/
def ipv6? (cs : List Char) : Option (List Char) :=
  match groups true 8 cs with
  | (8, _, rest) => some rest
  | (_, true, _) => none
  | (n, false, rest) => do
    let rest ← char? ':' (← char? ':' rest)
    let (_, _, rest) := groups true (7 - n) rest
    return rest

/-- The zone of an IPv6 address, which may be missing. -/
def zone? (cs : List Char) : List Char :=
  match char? '%' cs >>= number? 10 cs.length 0xFFFFFFFF true with
  | some rest => rest
  | none => cs

/-- The port, up to the end of the text. -/
def port? (cs : List Char) : Option Unit := do
  let rest ← number? 10 cs.length 0xFFFF true (← char? ':' cs)
  if rest.isEmpty then some () else none

/-- The text is an IPv4 address with a port. -/
def isIpv4 (cs : List Char) : Bool := (ipv4? cs >>= port?).isSome

/-- The text is an IPv6 address with a port. -/
def isIpv6 (cs : List Char) : Bool :=
  (do port? (← char? ']' (zone? (← ipv6? (← char? '[' cs))))).isSome

/-- The text is a socket address. -/
def isValid (s : String) : Bool := isIpv4 s.toList || isIpv6 s.toList

end CampusQuery.SocketAddress
