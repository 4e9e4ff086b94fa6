import Flowchart.Template
import Flowchart.Text.Character
import Flowchart.Text.Path
import Flowchart.Text.Percent

/-!
# Shared links

A link carries the text of a diagram in the parameter `code` of its query.  A link
without text leads to the template of a type.

The query of an address is what stands between its first question mark and its
fragment.  Controls and spaces at the start and tabs and line breaks anywhere do
not count.  After the scheme, two slashes introduce a host; brackets may only stand
around the whole host and have to hold an internet address, and a host must not
hold characters whose compatibility forms contain delimiters of an address.
-/

namespace Flowchart
namespace Address

open Text

section Hosts

/-- A number up to 255 in decimal without a zero in front. -/
def isOctet (cs : List Char) : Bool :=
  !cs.isEmpty && cs.all (·.isDigit) && cs.length ≤ 3
    && (cs == ['0'] || cs.head? != some '0')
    && cs.foldl (fun n c => 10 * n + (c.toNat - 0x30)) 0 ≤ 255

/-- An address of version 4: four octets with points between them. -/
def isVersion4 (cs : List Char) : Bool :=
  let octets := cs.splitOn '.'
  octets.length == 4 && octets.all isOctet

/-- Whether a character is a hexadecimal digit. -/
def isHexDigit (c : Char) : Bool :=
  c.isDigit || ('a' ≤ c && c ≤ 'f') || ('A' ≤ c && c ≤ 'F')

/-- A group of an address of version 6: up to four hexadecimal digits. -/
def isGroup (cs : List Char) : Bool :=
  !cs.isEmpty && cs.length ≤ 4 && cs.all isHexDigit

/-- The number of groups on one side of a gap; nothing stands at an end of the address. -/
def side? (groups : List (List Char)) : Option Nat :=
  if groups == [[]] then some 0
  else if groups.all isGroup then some groups.length
  else none

/-- Eight groups, or fewer around one gap. -/
def areGroups (groups : List (List Char)) : Bool :=
  let inner := groups.tail.dropLast
  match inner.countP (·.isEmpty) with
  | 0 => groups.length == 8 && groups.all isGroup
  | 1 =>
      let before := (inner.takeWhile (!·.isEmpty)).length + 1
      match side? (groups.take before), side? (groups.drop (before + 1)) with
      | some m, some n => m + n ≤ 7
      | _, _ => false
  | _ => false

/-- Groups of which the last one may be written as an address of version 4. -/
def isVersion6Body (cs : List Char) : Bool :=
  let groups := cs.splitOn ':'
  let last := groups.getLastD []
  3 ≤ groups.length
    && if last.contains '.' then
        isVersion4 last && areGroups (groups.dropLast ++ [['0'], ['0']])
      else areGroups groups

/-- An address of version 6, perhaps with the name of a zone after a percent sign. -/
def isVersion6 (cs : List Char) : Bool :=
  match cut '%' cs with
  | (body, none) => isVersion6Body body
  | (body, some zone) => !zone.isEmpty && !zone.contains '%' && isVersion6Body body

/-- An address of a future version: its number in hexadecimal, a point, and something more. -/
def isFutureAddress (cs : List Char) : Bool :=
  match cs with
  | 'v' :: rest =>
      !(rest.takeWhile isHexDigit).isEmpty
        && match rest.dropWhile isHexDigit with
          | '.' :: _ :: _ => true
          | _ => false
  | _ => false

/-- The name of a host that stands between brackets. -/
def checkBracketed (name : List Char) : Except Fault Unit :=
  if name.head? == some 'v' then
    if isFutureAddress name then .ok () else .error .malformedFutureAddress
  else if isVersion4 name then .error .bracketedVersion4
  else if isVersion6 name then .ok ()
  else .error (.notAnAddress (String.ofList name))

/-- The brackets of a host, which may have a user before it and a number after it. -/
def checkBrackets (host : List Char) : Except Fault Unit :=
  if host.contains '[' != host.contains ']' then .error .misplacedBracket
  else if !host.contains '[' then .ok ()
  else
    let named := (host.reverse.takeWhile (· != '@')).reverse
    match cut '[' named with
    | (before, some bracketed) =>
        let (name, after) := cut ']' bracketed
        let after := after.getD []
        if !before.isEmpty || !(after.isEmpty || after.head? == some ':') then
          .error .misplacedBracket
        else checkBracketed name
    | (_, none) => checkBracketed (cut ':' named).1

/-- Characters whose compatibility forms contain a slash, a question mark, `#`, `@` or a colon. -/
def misleading : List Nat :=
  [
    0x2047, 0x2048, 0x2049, 0x2100, 0x2101, 0x2105, 0x2106, 0x2A74, 0xFE13,
    0xFE16, 0xFE55, 0xFE56, 0xFE5F, 0xFE6B, 0xFF03, 0xFF0F, 0xFF1A, 0xFF1F,
    0xFF20 ]

/-- The characters of a host. -/
def checkCharacters (host : List Char) : Except Fault Unit :=
  if host.any fun c => misleading.contains c.toNat then
    .error (.misleadingHost (String.ofList host))
  else .ok ()

end Hosts

section AddressParts

/-- An address without leading controls and spaces and without tabs and line breaks. -/
def clean (cs : List Char) : List Char :=
  (cs.dropWhile (·.toNat ≤ 0x20)).filter fun c => !(c == '\t' || c == '\r' || c == '\n')

/-- Whether a text is a scheme: a letter, and then letters, digits and three signs. -/
def isScheme (cs : List Char) : Bool :=
  match cs with
  | [] => false
  | c :: rest =>
      c.isAlpha && rest.all fun c => c.isAlphanum || c == '+' || c == '-' || c == '.'

/-- What follows the scheme, if there is one. -/
def afterScheme (cs : List Char) : List Char :=
  match cut ':' cs with
  | (scheme, some rest) => if isScheme scheme then rest else cs
  | (_, none) => cs

/-- Whether a character ends a host. -/
def endsHost (c : Char) : Bool := c == '/' || c == '?' || c == '#'

/-- The host after two slashes, and the rest; without the slashes there is no host. -/
def splitHost (cs : List Char) : List Char × List Char :=
  match cs with
  | '/' :: '/' :: rest => (rest.takeWhile (!endsHost ·), rest.dropWhile (!endsHost ·))
  | _ => ([], cs)

/-- The query of an address, which is empty if there is none. -/
def query (address : List Char) : Except Fault (List Char) := do
  let (host, rest) := splitHost (afterScheme (clean address))
  checkBrackets host
  checkCharacters host
  return (cut '?' (cut '#' rest).1).2.getD []

end AddressParts

end Address

namespace Link

open Text

/-- The name of the parameter that carries the text. -/
def parameter : List Char := "code".toList

/-- A part of a parameter in plain; a plus sign stands for a space. -/
def plain (cs : List Char) : List Char :=
  Percent.decode (cs.map fun c => if c = '+' then ' ' else c)

/-- One parameter, if it has a value. -/
def readParameter? (cs : List Char) : Option (List Char × List Char) :=
  match cut '=' cs with
  | (_, none) => none
  | (_, some []) => none
  | (name, some value) => some (plain name, plain value)

/-- The parameters of a query that have a value, in order. -/
def parameters (query : List Char) : List (List Char × List Char) :=
  (query.splitOn '&').filterMap readParameter?

/-- Whether a text is an address and not only the query of one. -/
def isAddress (cs : List Char) : Bool :=
  holds "://".toList cs || cs.head? == some '/'

/-- The text that a link or a query carries; the template of a type if it carries none. -/
def read (link type : String) : Except Fault String := do
  let cs := link.toList
  let query ← if isAddress cs then Address.query cs else .ok cs
  match (parameters (query.dropWhile (· == '?'))).find? (·.1 == parameter) with
  | some (_, text) => return String.ofList text
  | none => template type

/-- A link that carries a text. -/
def share (base text : String) : String :=
  let separator := if base.toList.contains '?' then "&" else "?"
  base ++ separator ++ "code=" ++ String.ofList (Percent.encode text.toList)

end Link
end Flowchart
