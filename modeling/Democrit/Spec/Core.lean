import Democrit.Spec.System

/-!
# What is assumed of Xaya Core

The behaviour of the RPC methods that the daemon relies on, as statements about which answers an
environment gives.  A result names the promises it uses; nothing here is built into the model, in
which any method may answer anything.

PSBTs are opaque strings to the daemon.  `decode` is the function that `decodepsbt` computes, and
`rawTx` reads the unsigned part of a raw transaction.  Both are parameters.
-/

namespace Democrit

open Interaction

variable {W : Type}

/-- `decodepsbt` is a function of its argument. -/
def Decodes (decode : String → Psbt) (E : Env Call Answer W) : Prop :=
  ∀ w p d w', E w (Ev.returned (.decodepsbt p) d) w' → d = decode p

/-- An output of exactly `v` to exactly `addr` that has nothing to do with names. -/
def PaysExactly (addr : String) (v : Amount) (out : TxOut) : Prop :=
  out.scriptPubKey.nameOp = .null ∧ matchesAddress out.scriptPubKey addr = true ∧ out.value = some v

/-- What `namepsbt` makes of an output. -/
def withNameOp (op name value : String) (out : TxOut) : TxOut :=
  { out with
    scriptPubKey := { out.scriptPubKey with
      nameOp := .object { op, name := some name, value := some value } } }

/-- The methods that build, combine and finalise PSBTs do what they are asked for.

`change` tells the wallet's change outputs.  `walletcreatefundedpsbt` refuses negative amounts, and
`combinepsbt` refuses PSBTs of different transactions. -/
structure BuildsPsbts (decode : String → Psbt) (rawTx : String → Tx) (change : TxOut → Prop)
    (E : Env Call Answer W) : Prop where
  funds : ∀ w addr total feeRate p w',
    E w (Ev.returned (.walletcreatefundedpsbt [(addr, total)] feeRate) p) w' →
    0 ≤ total.toInt ∧ ∃ pay rest, PaysExactly addr total pay ∧ (∀ out ∈ rest, change out) ∧
      (decode p).tx.vout.Perm (pay :: rest)
  creates : ∀ w ins outs p w', E w (Ev.returned (.createpsbt ins outs) p) w' →
    (decode p).tx.vin = ins ∧
    List.Forall₂ (fun a out => PaysExactly a.1 a.2 out) outs (decode p).tx.vout
  names : ∀ w p n op name value q w', E w (Ev.returned (.namepsbt p n op name value) q) w' →
    (decode q).tx.vin = (decode p).tx.vin ∧
    (decode q).tx.vout = (decode p).tx.vout.modify n (withNameOp op name value)
  joins : ∀ w ps p w', E w (Ev.returned (.joinpsbts ps) p) w' →
    (decode p).tx.vin.Perm (ps.map fun q => (decode q).tx.vin).flatten ∧
    (decode p).tx.vout.Perm (ps.map fun q => (decode q).tx.vout).flatten
  combines : ∀ w ps p w', E w (Ev.returned (.combinepsbt ps) p) w' →
    ∀ q ∈ ps, (decode q).tx = (decode p).tx
  finalises : ∀ w p hex w', E w (Ev.returned (.finalizepsbt p) (some hex)) w' →
    rawTx hex = (decode p).tx

/-- Less may be promised about the change. -/
lemma BuildsPsbts.mono {decode : String → Psbt} {rawTx : String → Tx} {change change' : TxOut → Prop}
    {E : Env Call Answer W} (h : BuildsPsbts decode rawTx change E)
    (hsub : ∀ out, change out → change' out) : BuildsPsbts decode rawTx change' E where
  funds w addr total feeRate p w' he := by
    obtain ⟨hpos, pay, rest, hpay, hrest, hvout⟩ := h.funds w addr total feeRate p w' he
    exact ⟨hpos, pay, rest, hpay, fun out hout => hsub out (hrest out hout), hvout⟩
  creates := h.creates
  names := h.names
  joins := h.joins
  combines := h.combines
  finalises := h.finalises

/-- A promise about single exchanges holds for every exchange along a path. -/
lemma Decodes.of_path {decode : String → Psbt} {E : Env Call Answer W} (h : Decodes decode E)
    {tr : Conversation} {w w' : W} (hp : E.Path w tr w') {p : String} {d : Psbt}
    (hm : Ev.returned (.decodepsbt p) d ∈ tr) : d = decode p := by
  obtain ⟨w₁, w₁', he⟩ := Env.event_of_path hp hm
  exact h w₁ p d w₁' he

/-! ## The phases of building -/

section

variable {E : Env Call Answer W} {decode : String → Psbt} {cfg : Config} {account : String}
  {pb : TradeState} {tr : Conversation} {w w' : W}

/-- A buyer who builds checks the trade, builds the transaction, and then signs it. -/
lemma BuyerBuilds.phases {nameIn : OutPoint} {unsignedPsbt signedPsbt : String}
    (h : BuyerBuilds cfg account pb tr nameIn unsignedPsbt signedPsbt) (hdec : Decodes decode E)
    (hp : E.Path w tr w') :
    ∃ (checked : Conversation) (total : Amount) (chiPart rawNamePart namePart : String) (w₁ w₂ : W),
      ((buildTradeChecker account pb).checkForBuyerTrade ()).Exec checked (.ok (some nameIn), ()) ∧
      (buildTradeChecker account pb).getTotalSat = .ok (some total) ∧
      tr = checked ++ (buildTx cfg (buildTradeChecker account pb) pb nameIn total chiPart rawNamePart
          namePart unsignedPsbt
        ++ [Ev.returned (.walletprocesspsbt unsignedPsbt) (signedPsbt, false),
          Ev.returned (.decodepsbt unsignedPsbt) (decode unsignedPsbt),
          Ev.returned (.decodepsbt signedPsbt) (decode signedPsbt)]) ∧
      E.Path w checked w₁ ∧
      E.Path w₁ (buildTx cfg (buildTradeChecker account pb) pb nameIn total chiPart rawNamePart
        namePart unsignedPsbt) w₂ ∧
      E.Path w₂ [Ev.returned (.walletprocesspsbt unsignedPsbt) (signedPsbt, false),
        Ev.returned (.decodepsbt unsignedPsbt) (decode unsignedPsbt),
        Ev.returned (.decodepsbt signedPsbt) (decode signedPsbt)] w' ∧
      buyerSignature (decode unsignedPsbt) (decode signedPsbt) = .ok true := by
  obtain ⟨checked, total, chiPart, rawNamePart, namePart, before, after, hx, htotal, _, _, htr, hsig⟩ :=
    h.verified
  obtain rfl : before = decode unsignedPsbt := hdec.of_path hp (by simp [htr])
  obtain rfl : after = decode signedPsbt := hdec.of_path hp (by simp [htr])
  rw [List.append_assoc] at htr
  rw [htr] at hp
  obtain ⟨w₁, hchecked, hp⟩ := Env.path_append.mp hp
  obtain ⟨w₂, hbuild, hsign⟩ := Env.path_append.mp hp
  exact ⟨checked, total, chiPart, rawNamePart, namePart, w₁, w₂, hx, htotal, htr, hchecked, hbuild,
    hsign, hsig⟩

/-- One who gives the transaction up unlocks its inputs after that. -/
lemma BuyerReleases.phases (h : BuyerReleases cfg account pb tr) (hdec : Decodes decode E)
    (hp : E.Path w tr w') :
    ∃ (checked signing unlocked : Conversation) (nameIn : OutPoint) (total : Amount)
      (chiPart rawNamePart namePart unsignedPsbt : String) (w₁ w₂ w₃ : W),
      ((buildTradeChecker account pb).checkForBuyerTrade ()).Exec checked (.ok (some nameIn), ()) ∧
      tr = checked ++ (buildTx cfg (buildTradeChecker account pb) pb nameIn total chiPart rawNamePart
        namePart unsignedPsbt ++ (signing ++ unlocked)) ∧
      E.Path w checked w₁ ∧
      E.Path w₁ (buildTx cfg (buildTradeChecker account pb) pb nameIn total chiPart rawNamePart
        namePart unsignedPsbt) w₂ ∧
      E.Path w₂ signing w₃ ∧ Quiet signing ∧
      E.Path w₃ unlocked w' ∧ Unlocks (decode unsignedPsbt).tx.vin unlocked := by
  obtain ⟨checked, nameIn, total, chiPart, rawNamePart, namePart, unsignedPsbt, signedPsbt, complete,
    before, after, again, unlocked, hx, htr, hsame, hun⟩ := h.released
  obtain rfl : before = decode unsignedPsbt := hdec.of_path hp (by simp [htr])
  obtain rfl : after = decode signedPsbt := hdec.of_path hp (by simp [htr])
  obtain rfl : again = decode signedPsbt := hdec.of_path hp (by simp [htr])
  rw [← hsame] at hun
  rw [List.append_assoc, List.append_assoc] at htr
  rw [htr] at hp
  obtain ⟨w₁, hchecked, hp⟩ := Env.path_append.mp hp
  obtain ⟨w₂, hbuild, hp⟩ := Env.path_append.mp hp
  obtain ⟨w₃, hsign, hunlock⟩ := Env.path_append.mp hp
  exact ⟨checked, _, unlocked, nameIn, total, chiPart, rawNamePart, namePart, unsignedPsbt, w₁, w₂,
    w₃, hx, htr, hchecked, hbuild, hsign, by simp [Ev.quiet], hunlock, hun⟩

end

end Democrit
