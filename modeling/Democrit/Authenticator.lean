import Mathlib.Data.Finset.Basic

/-!
# `Authenticator`

`src/authenticator.cpp`: the XMPP user name of a JID on a trusted server is an encoding of the
Xaya name it is authenticated for.

A `std::string` is a list of `char`, and **`char` is signed** here, so a byte from 128 on is negative
in the comparisons of `IsSimpleChar` and `HexCharValue`.  The decoder assembles a byte in a
`uint8_t`, whose shift loses what goes out at the top.
-/

namespace Democrit

/-- `std::string`, as bytes. -/
abbrev Bytes : Type := List Int8

/-- The assertions in `DecodeName`. -/
inductive DecodeCheck where
  /-- `CHECK_GE (val, 0)`. -/
  | valNonNegative
  /-- `CHECK_LT (val, 16)`. -/
  | valBelow
  /-- `CHECK (!inByte)`. -/
  | notInByte
  /-- `CHECK_EQ (cur, 0)`. -/
  | curZero
  deriving DecidableEq, Repr

/-- `ParseCommaSeparated`. -/
def parseCommaSeparated (lst : Bytes) : Finset Bytes :=
  if lst.isEmpty then ∅ else (lst.splitOn 44).toFinset

/-- `IsSimpleChar`: `0` to `9` and `a` to `z`. -/
def isSimpleChar (c : Int8) : Bool :=
  (48 ≤ c && c ≤ 57) || (97 ≤ c && c ≤ 122)

/-- `HexCharValue`. -/
def hexCharValue (c : Int8) : ℤ :=
  if 48 ≤ c ∧ c ≤ 57 then c.toInt - 48
  else if 97 ≤ c ∧ c ≤ 102 then 10 + c.toInt - 97
  else -1

/-- `ENCODED_PREFIX`, which is `x-`. -/
def encodedPrefix : Bytes := [120, 45]

/-- The variables of the loop of `DecodeName`. -/
structure DecodeState where
  out : Bytes := []
  cur : UInt8 := 0
  inByte : Bool := false
  foundNonSimple : Bool := false
  deriving DecidableEq, Repr

/-- The loop of `DecodeName` over the characters after the prefix; `none` is the early return. -/
def decodeLoop : Bytes → DecodeState → Except DecodeCheck (Option DecodeState)
  | [], st => .ok (some st)
  | c :: rest, st =>
      let val := hexCharValue c
      if val = -1 then .ok none
      else if ¬ 0 ≤ val then .error .valNonNegative
      else if ¬ val < 16 then .error .valBelow
      else
        let cur := st.cur ||| UInt8.ofInt val
        if st.inByte then
          let decodedChar := cur.toInt8
          decodeLoop rest
            { out := st.out ++ [decodedChar], cur := 0, inByte := false,
              foundNonSimple := st.foundNonSimple || !isSimpleChar decodedChar }
        else
          decodeLoop rest { st with cur := cur <<< 4, inByte := true }

/-- `DecodeName`: the decoded name, if it returns true. -/
def decodeName (name : Bytes) : Except DecodeCheck (Option Bytes) :=
  if name.isEmpty then .ok none
  else if name.take encodedPrefix.length ≠ encodedPrefix then
    .ok (if name.all isSimpleChar then some name else none)
  else
    let hexPart := name.drop encodedPrefix.length
    if hexPart.length % 2 ≠ 0 then .ok none
    else if hexPart.isEmpty then .ok (some [])
    else match decodeLoop hexPart {} with
      | .error c => .error c
      | .ok none => .ok none
      | .ok (some st) =>
          if st.inByte then .error .notInByte
          else if st.cur ≠ 0 then .error .curZero
          else if !st.foundNonSimple then .ok none
          else .ok (some st.out)

/-- A `gloox::JID`. -/
structure Jid where
  username : Bytes
  server : Bytes
  resource : Bytes
  deriving DecidableEq, Repr

/-- `Authenticator`.  `knownJids` is the mutable cache of the last JID seen for each account. -/
structure Authenticator where
  xidServers : Finset Bytes
  knownJids : Bytes → Option Jid := fun _ => none

/-- `Authenticator::Authenticate`: the account, if it returns true. -/
def Authenticator.authenticate (auth : Authenticator) (jid : Jid) :
    Except DecodeCheck (Option Bytes × Authenticator) :=
  if jid.server ∉ auth.xidServers then .ok (none, auth)
  else match decodeName jid.username with
    | .error c => .error c
    | .ok none => .ok (none, auth)
    | .ok (some account) =>
        .ok (some account,
          { auth with knownJids := fun a => if a = account then some jid else auth.knownJids a })

/-- `Authenticator::LookupJid`. -/
def Authenticator.lookupJid (auth : Authenticator) (account : Bytes) : Option Jid :=
  auth.knownJids account

end Democrit
