import Democrit.Checker
import Democrit.Book.Amounts
import Mathlib.Data.List.TakeWhile

/-!
# The `AssetSpec` for non-fungible assets

`src/nonfungible/main.cpp`: the game that the repository comes with a binary for.  An asset of it
has a minter and a name, which the daemon has as one string with a newline between them.

Each query of the `AssetSpec` makes one call of the GSP at most, so what it returns is a function of
what the GSP answers at that point.  An error is an exception of the call, or a failed assertion;
the asset that cannot be split is one of these, except for `IsAsset`, which says no.

A call returns a JSON object, since the generated client stub raises an exception otherwise.
`uint256::FromHex` is part of libxayautil, and is a parameter here.
-/

namespace Democrit

/-- `Json::Value::isNull`. -/
def Json.isNull : Json → Bool
  | .null => true
  | _ => false

/-- `Json::Value::isInt64` with `asInt64`. -/
def Json.int64? : Json → Option Int64
  | .int i => if -2 ^ 63 ≤ i ∧ i < 2 ^ 63 then some (Int64.ofInt i) else none
  | _ => none

/-- The GSP for non-fungible assets: what it answers at some point, unless the call raises an
exception. -/
structure NfRpcClient where
  getassetdetails : (asset : Json) → Option Json
  getbalance : (asset : Json) → (name : String) → Option Json

/-- `GetNfAsset`. -/
def getNfAsset (str : String) : Json :=
  match str.toList.dropWhile fun c => c ≠ '\n' with
  | [] => .null
  | _ :: a =>
      let m := str.toList.takeWhile fun c => c ≠ '\n'
      let res := Json.setMember "m" (.str (String.ofList m)) (.obj [])
      Json.setMember "a" (.str (String.ofList a)) res

namespace NfAssetSpec

/-- `NfAssetSpec::GetGameId`. -/
def getGameId : String := "nf"

/-- `NfAssetSpec::IsAsset`. -/
def isAsset (gsp : NfRpcClient) (asset : String) : Except RpcError Bool :=
  let jsonAsset := getNfAsset asset
  if jsonAsset.isNull then .ok false
  else match gsp.getassetdetails jsonAsset with
    | none => .error .exception
    | some response =>
        match response.member "data" with
        | none => .error .malformed
        | some data => .ok (!data.isNull)

/-- `NfAssetSpec::CanSell`, with the block hash if the answer is yes. -/
def canSell (fromHex : String → Option Uint256) (gsp : NfRpcClient) (name asset : String)
    (n : Amount) : Except RpcError (Option Uint256) :=
  let jsonAsset := getNfAsset asset
  if !jsonAsset.isObject then .error .malformed
  else match gsp.getbalance jsonAsset name with
    | none => .error .exception
    | some response =>
        match (response.member "data").bind Json.int64?,
            ((response.member "blockhash").bind Json.string?).bind fromHex with
        | some balance, some hash => .ok (if n ≤ balance then some hash else none)
        | _, _ => .error .malformed

/-- `NfAssetSpec::CanBuy`. -/
def canBuy (_name _asset : String) (_n : Amount) : Bool := true

/-- `NfAssetSpec::GetTransferMove`, if its assertion holds. -/
def getTransferMove (_sender receiver asset : String) (n : Amount) : Option Json :=
  let jsonAsset := getNfAsset asset
  if !jsonAsset.isObject then none
  else
    let transfer := Json.setMember "a" jsonAsset (.obj [])
    let transfer := Json.setMember "n" (.int n.toInt) transfer
    let transfer := Json.setMember "r" (.str receiver) transfer
    some (Json.setMember "t" transfer (.obj []))

end NfAssetSpec

/-- A daemon for the game.  A move that cannot be made is null. -/
def nfConfig (writeString : Json → String) : Config where
  getGameId := NfAssetSpec.getGameId
  getTransferMove sender receiver asset n :=
    (NfAssetSpec.getTransferMove sender receiver asset n).getD .null
  writeString := writeString

/-! ## Splitting -/

/-- There is a newline in the string. -/
def Splits (asset : String) : Prop := '\n' ∈ asset.toList

instance instDecidableSplits (asset : String) : Decidable (Splits asset) :=
  inferInstanceAs (Decidable ('\n' ∈ asset.toList))

lemma getNfAsset_of_not {asset : String} (h : ¬ Splits asset) : getNfAsset asset = .null := by
  have hnil : asset.toList.dropWhile (fun c => c ≠ '\n') = [] := by
    rw [List.dropWhile_eq_nil_iff]
    intro c hc
    have hne : c ≠ '\n' := by
      rintro rfl
      exact h hc
    simpa using hne
  rw [getNfAsset, hnil]

/-- The two parts, and the newline between them. -/
lemma split_asset {asset : String} (h : Splits asset) : ∃ m a : List Char,
    '\n' ∉ m ∧ asset.toList = m ++ '\n' :: a ∧
    getNfAsset asset = .obj [("m", .str (String.ofList m)), ("a", .str (String.ofList a))] := by
  have hm : '\n' ∉ asset.toList.takeWhile fun c => c ≠ '\n' := by
    intro hmem
    simpa using List.mem_takeWhile_imp hmem
  have hsplit := List.takeWhile_append_dropWhile (p := fun c => c ≠ '\n') (l := asset.toList)
  cases hrest : asset.toList.dropWhile fun c => c ≠ '\n' with
  | nil =>
      rw [hrest, List.append_nil] at hsplit
      rw [hsplit] at hm
      exact absurd h hm
  | cons c a =>
      have hc : c = '\n' := by
        have := List.head?_dropWhile_not (fun c => decide (c ≠ '\n')) asset.toList
        rw [hrest] at this
        simpa using this
      subst hc
      refine ⟨_, a, hm, ?_, ?_⟩
      · rw [← hrest]
        exact hsplit.symm
      · rw [getNfAsset, hrest]
        rfl

lemma isObject_getNfAsset {asset : String} : (getNfAsset asset).isObject = true ↔ Splits asset := by
  constructor
  · intro h
    by_contra hnot
    rw [getNfAsset_of_not hnot] at h
    cases h
  · intro h
    obtain ⟨m, a, _, _, heq⟩ := split_asset h
    rw [heq]
    rfl

/-! ## What the GSP promises -/

/-- The replies of the GSP have the members that it documents. -/
structure NfRpcClient.Proper (fromHex : String → Option Uint256) (gsp : NfRpcClient) : Prop where
  details : ∀ asset response, gsp.getassetdetails asset = some response →
    (response.member "data").isSome
  balance : ∀ asset name response, gsp.getbalance asset name = some response →
    ((response.member "data").bind Json.int64?).isSome
  blockhash : ∀ asset name response, gsp.getbalance asset name = some response →
    (((response.member "blockhash").bind Json.string?).bind fromHex).isSome

variable {fromHex : String → Option Uint256} {gsp : NfRpcClient} {asset : String}

/-- Only a string that splits can be an asset. -/
lemma splits_of_isAsset (h : NfAssetSpec.isAsset gsp asset = .ok true) : Splits asset := by
  by_contra hnot
  rw [NfAssetSpec.isAsset, getNfAsset_of_not hnot] at h
  cases h

/-- `IsAsset` fails no assertion. -/
lemma NfRpcClient.Proper.isAsset (h : gsp.Proper fromHex) :
    NfAssetSpec.isAsset gsp asset ≠ .error .malformed := by
  rw [NfAssetSpec.isAsset]
  split_ifs
  · simp
  · cases hresponse : gsp.getassetdetails (getNfAsset asset) with
    | none => simp
    | some response =>
        obtain ⟨data, hdata⟩ := Option.isSome_iff_exists.mp (h.details _ _ hresponse)
        simp [hdata]

/-- **`CanSell` fails an assertion about a string that does not split**, and about no other. -/
lemma NfRpcClient.Proper.canSell_iff (h : gsp.Proper fromHex) {name : String} {n : Amount} :
    NfAssetSpec.canSell fromHex gsp name asset n = .error .malformed ↔ ¬ Splits asset := by
  rw [NfAssetSpec.canSell]
  by_cases hsplits : Splits asset
  · rw [isObject_getNfAsset.mpr hsplits]
    cases hresponse : gsp.getbalance (getNfAsset asset) name with
    | none => simp [hsplits]
    | some response =>
        obtain ⟨balance, hbalance⟩ := Option.isSome_iff_exists.mp (h.balance _ _ _ hresponse)
        obtain ⟨hash, hhash⟩ := Option.isSome_iff_exists.mp (h.blockhash _ _ _ hresponse)
        simp [hbalance, hhash, hsplits]
  · have hnot : (getNfAsset asset).isObject = false := by
      rw [getNfAsset_of_not hsplits]
      rfl
    simp [hnot, hsplits]

/-- So does `GetTransferMove`. -/
lemma isSome_getTransferMove {sender receiver : String} {n : Amount} :
    (NfAssetSpec.getTransferMove sender receiver asset n).isSome = true ↔ Splits asset := by
  rw [NfAssetSpec.getTransferMove, ← isObject_getNfAsset]
  cases (getNfAsset asset).isObject <;> simp

end Democrit
