import Democrit.Network.Broadcasts
import Democrit.Lib.Word
import Mathlib.Data.UInt

/-!
# Amounts on their way through the daemon

The fields of an order are `uint64`, an `Amount` is an `int64_t`, and so is the number that is
written to JSON.  The conversions are implicit, and none is checked: `ValidateOrder` asks for
`CanSell` with a signed number of units, and `IntToJson` takes a signed one.

`amounts_keep_iff` says for which accepted orders all of this is harmless: **exactly those with units,
price and id below `2 ^ 63`**.  From there on an ask is covered by any balance, even an empty one, and
the export writes negative numbers, which the import rejects.
-/

namespace Democrit

/-! ## Members of an object -/

/-- The value is a JSON object. -/
def Json.isObject : Json → Bool
  | .obj _ => true
  | _ => false

@[simp] lemma Json.isObject_setMember (key : String) (val : Json) (j : Json) :
    (Json.setMember key val j).isObject = true := by
  cases j <;> rfl

@[simp] lemma Json.isObject_setOptional (key : String) (val : Option Json) (j : Json) :
    (j.setOptional key val).isObject = (val.isSome || j.isObject) := by
  cases val with
  | none => rfl
  | some v => exact Json.isObject_setMember key v j

@[simp] lemma Json.member_empty (key : String) : (Json.obj []).member key = none := rfl

/-- What is set replaces what was there, and nothing else. -/
@[simp] lemma Json.member_setMember (key key' : String) (val : Json) (j : Json) :
    (Json.setMember key' val j).member key = if key = key' then some val else j.member key := by
  cases j with
  | obj members =>
      by_cases hkey : key = key'
      · subst hkey
        have hnone : (members.filter fun m => m.1 ≠ key).find? (fun m => m.1 = key) = none := by
          rw [List.find?_eq_none]
          intro m hm
          simpa using (List.mem_filter.mp hm).2
        rw [Json.setMember, Json.member, List.find?_append, hnone, Option.none_or]
        simp
      · have hsame : (members.filter fun m => m.1 ≠ key').find? (fun m => m.1 = key)
            = members.find? fun m => m.1 = key := by
          rw [List.find?_filter]
          congr 1
          funext m
          by_cases hm : m.1 = key
          · simp [hm, hkey]
          · simp [hm]
        rw [Json.setMember, Json.member, List.find?_append, hsame]
        simp [Json.member, hkey, Ne.symm hkey]
  | _ =>
      by_cases hkey : key = key'
      · simp [Json.setMember, Json.member, hkey]
      · simp [Json.setMember, Json.member, hkey, Ne.symm hkey]

@[simp] lemma Json.member_setOptional (key key' : String) (val : Option Json) (j : Json) :
    (j.setOptional key' val).member key =
      if key = key' then val.or (j.member key) else j.member key := by
  cases val with
  | none => rw [Json.setOptional, Option.none_or, ite_self]
  | some v => exact Json.member_setMember key key' v j

/-! ## Numbers -/

/-- The JSON number of an unsigned word. -/
def natToJson (x : UInt64) : Json := .int x.toNat

/-- `IntToJson` of an unsigned word is right below `2 ^ 63`, and only there. -/
lemma intToJson_eq_iff {x : UInt64} : intToJson x.toInt64 = natToJson x ↔ x.toNat < 2 ^ 63 := by
  rw [intToJson, natToJson, Json.int.injEq, Word.toInt_toInt64]
  split_ifs with h
  · exact ⟨fun _ => h, fun _ => rfl⟩
  · have := x.toNat_lt
    omega

@[simp] lemma uint64_natToJson (x : UInt64) : (natToJson x).uint64? = some x := by
  have hx : x.toNat < 2 ^ 64 := x.toNat_lt
  rw [natToJson, Json.uint64?, if_pos ⟨Int.natCast_nonneg _, by exact_mod_cast hx⟩, Int.toNat_natCast,
    UInt64.ofNat_toNat]

@[simp] lemma string_str (s : String) : (Json.str s).string? = some s := rfl

@[simp] lemma orderTypeFromJson_toJson (t : OrderType) :
    orderTypeFromJson (orderTypeToJson t) = some t := by
  cases t <;> rfl

/-- What was written for an optional field is read again. -/
lemma Json.readOptional_eq {α : Type} {key : String} {read : Json → Option α} {val : Json}
    {x : Option α} {write : α → Json} (hmember : val.member key = x.map write)
    (hread : ∀ a, read (write a) = some a) : val.readOptional key read = some x := by
  rw [Json.readOptional, hmember]
  cases x with
  | none => rfl
  | some a => simp [hread]

/-! ## The export of an order -/

/-- The minimum that the export writes. -/
def Order.shownMin (o : Order) : UInt64 := o.minUnits.getD 1

/-- The members of the object that an order is exported as, and none besides. -/
structure Exported (o : Order) (j : Json) : Prop where
  object : j.isObject = true
  account : j.member "account" = o.account.map .str
  id : j.member "id" = o.id.map fun i => intToJson i.toInt64
  asset : j.member "asset" = o.asset.map .str
  minUnits : j.member "min_units" = some (intToJson o.shownMin.toInt64)
  maxUnits : j.member "max_units" = some (intToJson o.maxUnits.toInt64)
  priceSat : j.member "price_sat" = some (intToJson o.getPriceSat.toInt64)
  type : j.member "type" = o.type.map orderTypeToJson

lemma exported_orderToJson {o : Order} (h : UnitsOk o) :
    ∃ j, orderToJson o = .ok j ∧ Exported o j := by
  have hbounds : ¬ ¬ (max 1 o.getMinUnits.toInt64).toUInt64 ≤ o.maxUnits := not_not.mpr h
  rw [orderToJson, if_neg hbounds]
  refine ⟨_, rfl, ?_⟩
  have hmin : (o.minUnits.map UInt64.toInt64).getD 1 = o.shownMin.toInt64 := by
    cases hm : o.minUnits <;> simp [Order.shownMin, hm]
  rw [hmin]
  -- the last member is `locked`, which is not among those
  split
  · constructor <;> simp
  · constructor <;> simp

/-! ## Accepted orders -/

/-- `CanSell (n)` means `n <= balance`, as it does in `NfAssetSpec`. -/
def SellsBalance (spec : AssetSpec) (balance : String → String → Amount) : Prop :=
  ∀ name asset n, (spec.canSell name asset n).isSome ↔ n ≤ balance name asset

/-- The JSON numbers are the numbers in the order. -/
structure ShowsAmounts (o : Order) (j : Json) : Prop where
  id : j.member "id" = o.id.map natToJson
  minUnits : j.member "min_units" = some (natToJson o.shownMin)
  maxUnits : j.member "max_units" = some (natToJson o.maxUnits)
  priceSat : j.member "price_sat" = some (natToJson o.getPriceSat)

/-- The amounts of an order keep their value, on the way to `CanSell`, to JSON and back. -/
structure KeepsAmounts (balance : String → String → Amount) (account : String) (o : Order) :
    Prop where
  covered : o.getType = .ask → (o.maxUnits.toNat : ℤ) ≤ (balance account o.getAsset).toInt
  json : ∃ j, orderToJson o = .ok j ∧ ShowsAmounts o j ∧
    orderFromJson j = some { o with minUnits := some o.shownMin, locked := false }

/-- Units, price and id read the same with a sign. -/
structure Fits (o : Order) : Prop where
  maxUnits : o.maxUnits.toNat < 2 ^ 63
  priceSat : o.getPriceSat.toNat < 2 ^ 63
  id : ∀ i, o.id = some i → i.toNat < 2 ^ 63

/-- What the import makes of the numbers that were exported. -/
lemma orderFromJson_exported {o : Order} {j : Json} (h : Exported o j) (hshows : ShowsAmounts o j)
    (hprice : o.priceSat.isSome) :
    orderFromJson j = some { o with minUnits := some o.shownMin, locked := false } := by
  have haccount := Json.readOptional_eq h.account string_str
  have hid := Json.readOptional_eq hshows.id uint64_natToJson
  have hasset := Json.readOptional_eq h.asset string_str
  have hmin := Json.readOptional_eq (x := some o.shownMin) hshows.minUnits uint64_natToJson
  have htype := Json.readOptional_eq h.type orderTypeFromJson_toJson
  obtain ⟨price, hprice⟩ := Option.isSome_iff_exists.mp hprice
  cases j with
  | obj members =>
      rw [orderFromJson, haccount, hid, hasset, hmin, htype, hshows.maxUnits, hshows.priceSat,
        Option.bind_some, Option.bind_some, uint64_natToJson, uint64_natToJson, Order.getPriceSat,
        hprice]
      rfl
  | _ => exact absurd h.object (by simp [Json.isObject])

/-- Without units that can be read, there is no order. -/
lemma orderFromJson_of_malformed {j : Json} (h : (j.member "max_units").bind Json.uint64? = none) :
    orderFromJson j = none := by
  rw [orderFromJson.eq_def]
  cases j with
  | obj members =>
      rw [Option.eq_none_iff_forall_ne_some]
      intro o ho
      simp [h] at ho
  | _ => rfl

/-- **Which amounts keep their value.**  For every order that `ValidateOrder` accepts, and every
`AssetSpec` in which `CanSell` compares with a balance, an ask is covered by the balance, the export
shows the numbers of the order, and the import gives the order back, exactly if units, price and id
are below `2 ^ 63`. -/
theorem amounts_keep_iff {spec : AssetSpec} {balance : String → String → Amount}
    (hspec : SellsBalance spec balance) {account : String} {o : Order}
    (hvalid : spec.validateOrder account o = true) : KeepsAmounts balance account o ↔ Fits o := by
  simp only [AssetSpec.validateOrder, Bool.and_eq_true] at hvalid
  obtain ⟨⟨hwf, _⟩, hside⟩ := hvalid
  obtain ⟨j, hj, hexp⟩ := exported_orderToJson (unitsOk_of_wellFormed hwf)
  constructor
  · rintro ⟨_, j', hj', hshows, _⟩
    obtain rfl := Except.ok.inj (hj.symm.trans hj')
    refine ⟨?_, ?_, fun i hi => ?_⟩
    · exact intToJson_eq_iff.mp (Option.some.inj (hexp.maxUnits.symm.trans hshows.maxUnits))
    · exact intToJson_eq_iff.mp (Option.some.inj (hexp.priceSat.symm.trans hshows.priceSat))
    · have heq := hexp.id.symm.trans hshows.id
      rw [hi] at heq
      exact intToJson_eq_iff.mp (Option.some.inj heq)
  · rintro ⟨hmax, hprice, hid⟩
    simp only [orderWellFormed, Bool.and_eq_true] at hwf
    obtain ⟨⟨hpos, hminUnits⟩, hhas⟩ := hwf
    -- the minimum is not above the maximum
    have hmin : o.shownMin.toNat < 2 ^ 63 := by
      cases hm : o.minUnits with
      | none => simp [Order.shownMin, hm]
      | some m =>
          have hle : m ≤ o.maxUnits := by simpa using (by simpa [hm] using hminUnits : _ ∧ _).2
          have := UInt64.le_iff_toNat_le.mp hle
          simp only [Order.shownMin, hm, Option.getD_some]
          omega
    have hshows : ShowsAmounts o j := by
      refine ⟨?_, ?_, ?_, ?_⟩
      · rw [hexp.id]
        cases hi : o.id with
        | none => rfl
        | some i => exact congrArg some (intToJson_eq_iff.mpr (hid i hi))
      · rw [hexp.minUnits, intToJson_eq_iff.mpr hmin]
      · rw [hexp.maxUnits, intToJson_eq_iff.mpr hmax]
      · rw [hexp.priceSat, intToJson_eq_iff.mpr hprice]
    refine ⟨fun hask => ?_, j, hj, hshows, orderFromJson_exported hexp hshows hhas⟩
    rw [hask] at hside
    have hle := Int64.le_iff_toInt_le.mp ((hspec _ _ _).mp hside)
    rwa [Word.toInt_toInt64_of_lt hmax] at hle

/-- A game with gold, of which everybody has as much. -/
def balanceSpec (balance : Amount) : AssetSpec where
  isAsset a := a = "gold"
  canBuy _ _ _ := true
  canSell _ _ n := if n ≤ balance then some 0 else none

lemma sellsBalance_balanceSpec (balance : Amount) :
    SellsBalance (balanceSpec balance) fun _ _ => balance := by
  intro name asset n
  by_cases h : n ≤ balance <;> simp [balanceSpec, h]

/-- An ask for that many units. -/
def askOrder (units : UInt64) : Order where
  asset := some "gold"
  maxUnits := units
  type := some .ask
  priceSat := some 5

/-- Three units of ten are offered. -/
theorem amounts_keep_small : KeepsAmounts (fun _ _ => 10) "maker" (askOrder 3) :=
  (amounts_keep_iff (sellsBalance_balanceSpec 10) (by decide)).mpr
    ⟨by decide, by decide, nofun⟩

/-- **An offer of `2 ^ 63` units is accepted from an account that has none**, is exported with a
negative number, and cannot be imported again. -/
theorem amounts_lost : SellsBalance (balanceSpec 0) (fun _ _ => 0) ∧
    (balanceSpec 0).validateOrder "maker" (askOrder (2 ^ 63)) = true ∧
    (∃ j, orderToJson (askOrder (2 ^ 63)) = .ok j ∧
      j.member "max_units" = some (.int (-2 ^ 63)) ∧ orderFromJson j = none) ∧
    ¬ KeepsAmounts (fun _ _ => 0) "maker" (askOrder (2 ^ 63)) := by
  have hvalid : (balanceSpec 0).validateOrder "maker" (askOrder (2 ^ 63)) = true := by
    decide +kernel
  obtain ⟨j, hj, hexp⟩ := @exported_orderToJson (askOrder (2 ^ 63))
    (unitsOk_of_wellFormed (by decide +kernel))
  have hwraps : (askOrder (2 ^ 63)).maxUnits.toInt64.toInt = -2 ^ 63 := by decide +kernel
  have hmax : j.member "max_units" = some (.int (-2 ^ 63)) := by
    rw [hexp.maxUnits, intToJson, hwraps]
  refine ⟨sellsBalance_balanceSpec 0, hvalid, ⟨j, hj, hmax, orderFromJson_of_malformed ?_⟩,
    fun h => absurd (h.covered rfl) (by decide +kernel)⟩
  rw [hmax]
  rfl

end Democrit
