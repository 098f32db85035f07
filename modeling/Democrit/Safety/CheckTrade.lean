import Democrit.Gsp
import Democrit.Lib.Loops

/-!
# Looking up a trade in two reads

`CheckTrade` reads the pending moves first and the table of confirmed ones second, and nothing keeps
a block from coming in between.  As long as no block is detached, a trade that is in the table stays
there, under the same height (`gspRun_ok`).  So the answer is always one that **a single look at
the GSP would have given** (`checkTrade_atomic`): that at the time of the second read if the trade
was confirmed by then, and that at the time of the first read otherwise.

Reading in the other order would not do: a block that comes in between takes the trade from the
pending moves, after it was not yet found in the table.
-/

namespace Democrit

open Gsp

/-! ## The table -/

lemma trades_addPendingMove (moves : List GspMove) (gsp : Gsp) :
    (moves.foldl (fun gsp mv => gsp.addPendingMove mv) gsp).trades = gsp.trades := by
  induction moves generalizing gsp with
  | nil => rfl
  | cons mv moves ih =>
      rw [List.foldl_cons, ih]
      rfl

/-- A block with new moves is taken in. -/
lemma updateState_ok {blockData : BlockData} {gsp : Gsp}
    (hnodup : (blockData.moves.map parseMove).Nodup)
    (hnew : ∀ btxid ∈ blockData.moves.map parseMove, gsp.trades.lookup btxid = none) :
    ∃ trades, gsp.updateState blockData = .ok { gsp with trades, height := blockData.height } ∧
      ∀ btxid, trades.lookup btxid = if btxid ∈ blockData.moves.map parseMove then
        some blockData.height else gsp.trades.lookup btxid := by
  have hloop : ∃ trades, blockData.moves.foldlM
      (fun (trades : AList fun _ : String => UInt32) entry =>
        if parseMove entry ∈ trades then Except.error GspCheck.insert
        else .ok (trades.insert (parseMove entry) blockData.height))
      gsp.trades = .ok trades ∧
      ∀ btxid, trades.lookup btxid = if btxid ∈ blockData.moves.map parseMove then
        some blockData.height else gsp.trades.lookup btxid := by
    refine Loops.foldlM_visits
      (fun seen (trades : AList fun _ : String => UInt32) => ∀ btxid, trades.lookup btxid
        = if btxid ∈ seen.map parseMove then some blockData.height else gsp.trades.lookup btxid)
      ?_ (fun btxid => by simp)
    intro seen mv hpre trades htrades
    have hsub : (seen.map parseMove ++ [parseMove mv]).Sublist (blockData.moves.map parseMove) := by
      simpa using (hpre.sublist.map parseMove)
    -- the move is new to the block and to the table
    have hseen : parseMove mv ∉ seen.map parseMove := fun hmem =>
      (List.nodup_append.mp (hnodup.sublist hsub)).2.2 _ hmem _ (List.mem_singleton_self _) rfl
    have hfresh : parseMove mv ∉ trades := by
      rw [← AList.lookup_eq_none, htrades, if_neg hseen]
      exact hnew _ (hsub.subset (by simp))
    refine ⟨_, if_neg hfresh, fun btxid => ?_⟩
    by_cases hb : btxid = parseMove mv
    · subst hb
      rw [AList.lookup_insert, if_pos (by simp)]
    · rw [AList.lookup_insert_ne hb, htrades]
      simp [hb]
  obtain ⟨trades, htrades, hlookup⟩ := hloop
  refine ⟨trades, ?_, hlookup⟩
  rw [updateState, htrades]
  rfl

/-- **One event.**  What it mines is new, and is in the table afterwards. -/
lemma gspEvent_ok {gsp : Gsp} {ev : GspEvent} (hnodup : ev.mined.Nodup)
    (hnew : ∀ btxid ∈ ev.mined, gsp.trades.lookup btxid = none) :
    ∃ gsp', gsp.event ev = .ok gsp' ∧ ∀ btxid, gsp'.trades.lookup btxid =
      match ev with
      | .attachBlock blockData _ => if btxid ∈ ev.mined then some blockData.height
          else gsp.trades.lookup btxid
      | _ => gsp.trades.lookup btxid := by
  cases ev with
  | pendingMove mv => exact ⟨_, rfl, fun _ => rfl⟩
  | resetPending moves =>
      refine ⟨_, rfl, fun btxid => ?_⟩
      rw [trades_addPendingMove]
      rfl
  | attachBlock blockData moves =>
      obtain ⟨trades, htrades, hlookup⟩ := updateState_ok hnodup hnew
      refine ⟨moves.foldl (fun gsp mv => gsp.addPendingMove mv)
        (Gsp.clear { gsp with trades, height := blockData.height }), ?_, fun btxid => ?_⟩
      · rw [Gsp.event, htrades]
        rfl
      · rw [trades_addPendingMove]
        exact hlookup btxid

/-- The event is a block that confirms the trade, at `height`. -/
def GspEvent.Confirms (btxid : String) (height : UInt32) (ev : GspEvent) : Prop :=
  ∃ blockData moves, ev = .attachBlock blockData moves ∧
    btxid ∈ blockData.moves.map parseMove ∧ height = blockData.height

lemma confirms_attachBlock {btxid : String} {height : UInt32} {blockData : BlockData}
    {moves : List GspMove} : (GspEvent.attachBlock blockData moves).Confirms btxid height ↔
      btxid ∈ (GspEvent.attachBlock blockData moves).mined ∧ blockData.height = height := by
  constructor
  · rintro ⟨blockData', moves', heq, hmem, rfl⟩
    obtain ⟨rfl, rfl⟩ := GspEvent.attachBlock.inj heq
    exact ⟨hmem, rfl⟩
  · rintro ⟨hmem, rfl⟩
    exact ⟨blockData, moves, rfl, hmem, rfl⟩

/-- **Every run** with distinct btxids goes through, and has confirmed what its blocks confirm. -/
lemma gspRun_ok {events : List GspEvent} (h : (events.flatMap GspEvent.mined).Nodup) :
    ∃ gsp, Gsp.run events = .ok gsp ∧ ∀ btxid height,
      gsp.trades.lookup btxid = some height ↔ ∃ ev ∈ events, ev.Confirms btxid height := by
  refine Loops.foldlM_visits
    (fun (seen : List GspEvent) (gsp : Gsp) => ∀ btxid height,
      gsp.trades.lookup btxid = some height ↔ ∃ ev ∈ seen, ev.Confirms btxid height) ?_ ?_
  · intro seen ev hpre gsp hgsp
    have hsub : (seen.flatMap GspEvent.mined ++ ev.mined).Sublist
        (events.flatMap GspEvent.mined) := by
      obtain ⟨rest, rfl⟩ := hpre
      simp
    have hnodup := List.nodup_append.mp (h.sublist hsub)
    have hnew : ∀ btxid ∈ ev.mined, gsp.trades.lookup btxid = none := by
      intro btxid hmined
      refine Option.eq_none_iff_forall_ne_some.mpr fun height hsome => ?_
      obtain ⟨ev', hev', blockData, moves, rfl, hmem, _⟩ := (hgsp btxid height).mp hsome
      have hmem' : btxid ∈ seen.flatMap GspEvent.mined := List.mem_flatMap.mpr ⟨_, hev', hmem⟩
      exact hnodup.2.2 btxid hmem' btxid hmined rfl
    obtain ⟨gsp', hok, hlookup⟩ := gspEvent_ok hnodup.2.1 hnew
    refine ⟨gsp', hok, fun btxid height => ?_⟩
    have hsplit : (∃ ev' ∈ seen ++ [ev], ev'.Confirms btxid height) ↔
        gsp.trades.lookup btxid = some height ∨ ev.Confirms btxid height := by
      rw [hgsp]
      simp [or_and_right, exists_or]
    rw [hsplit, hlookup]
    cases ev with
    | pendingMove mv => simp [GspEvent.Confirms]
    | resetPending moves => simp [GspEvent.Confirms]
    | attachBlock blockData moves =>
        rw [confirms_attachBlock]
        by_cases hmined : btxid ∈ (GspEvent.attachBlock blockData moves).mined
        · simp [hnew btxid hmined, hmined]
        · simp [hmined]
  · intro btxid height
    rw [AList.lookup_empty]
    simp

/-! ## Two reads -/

/-- What `CheckTrade` says about the trade, with one read in each of the states. -/
def tradeState (first second : Gsp) (btxid : String) : Except GspCheck GspState :=
  (checkTrade first second btxid).map TradeData.state

/-- A trade that is confirmed at the second read: the first one does not matter. -/
lemma tradeState_of_confirmed {first first' second : Gsp} {btxid : String}
    (h : (second.trades.lookup btxid).isSome) :
    tradeState first second btxid = tradeState first' second btxid := by
  obtain ⟨height, hheight⟩ := Option.isSome_iff_exists.mp h
  simp only [tradeState, checkTrade, hheight]

/-- A trade that is not confirmed at the second read. -/
lemma tradeState_of_not_confirmed {first second : Gsp} {btxid : String}
    (h : second.trades.lookup btxid = none) :
    tradeState first second btxid
      = .ok (if first.pending.isMember btxid then .pending else .unknown) := by
  simp [tradeState, checkTrade, h, Except.map]

/-- An answer that is `confirmed` has the height in the table. -/
lemma lookup_of_confirmed {first second : Gsp} {btxid : String} {height : UInt32}
    (h : tradeState first second btxid = .ok (.confirmed height)) :
    second.trades.lookup btxid = some height := by
  cases hl : second.trades.lookup btxid with
  | none =>
      rw [tradeState_of_not_confirmed hl] at h
      split at h <;> cases h
  | some height' =>
      rw [tradeState, checkTrade, hl] at h
      simp only [Option.any_some] at h
      split at h
      · cases h
      · cases h
        rfl

/-- **Looking up a trade is atomic without reorgs.**  In a run in which no block is detached and no
btxid is confirmed twice, let `CheckTrade` read the pending moves after the events `before`, and the
table after `between` has happened as well.  The answer is what both reads at one instant between the
two would have given; it is not `unknown` if the trade is pending or confirmed at every instant in
between; and if it is `confirmed`, the height is that of the block with the move. -/
theorem checkTrade_atomic (before between : List GspEvent)
    (hdistinct : ((before ++ between).flatMap GspEvent.mined).Nodup) (btxid : String) :
    ∃ first second, Gsp.run before = .ok first ∧ Gsp.run (before ++ between) = .ok second ∧
      (∃ mid gsp, mid <+: between ∧ Gsp.run (before ++ mid) = .ok gsp ∧
        tradeState first second btxid = tradeState gsp gsp btxid) ∧
      ((∀ mid gsp, mid <+: between → Gsp.run (before ++ mid) = .ok gsp →
          gsp.pending.isMember btxid = true ∨ (gsp.trades.lookup btxid).isSome) →
        tradeState first second btxid ≠ .ok .unknown) ∧
      ∀ height, tradeState first second btxid = .ok (.confirmed height) →
        ∃ blockData moves, .attachBlock blockData moves ∈ before ++ between ∧
          btxid ∈ blockData.moves.map parseMove ∧ height = blockData.height := by
  have hbefore : (before.flatMap GspEvent.mined).Nodup := by
    rw [List.flatMap_append] at hdistinct
    exact hdistinct.sublist (List.sublist_append_left _ _)
  obtain ⟨first, hfirst, htrades⟩ := gspRun_ok hbefore
  obtain ⟨second, hsecond, htrades'⟩ := gspRun_ok hdistinct
  -- what is confirmed stays confirmed
  have hlater : second.trades.lookup btxid = none → first.trades.lookup btxid = none := by
    intro hnone
    refine Option.eq_none_iff_forall_ne_some.mpr fun height hsome => ?_
    obtain ⟨ev, hev, hconf⟩ := (htrades btxid height).mp hsome
    have hsome' := (htrades' btxid height).mpr ⟨ev, List.mem_append_left _ hev, hconf⟩
    rw [hnone] at hsome'
    cases hsome'
  refine ⟨first, second, hfirst, hsecond, ?_, ?_, ?_⟩
  · cases hl : second.trades.lookup btxid with
    | some height =>
        refine ⟨between, second, List.prefix_refl _, hsecond, ?_⟩
        exact tradeState_of_confirmed (by rw [hl]; rfl)
    | none =>
        refine ⟨[], first, List.nil_prefix, by rwa [List.append_nil], ?_⟩
        rw [tradeState_of_not_confirmed hl, tradeState_of_not_confirmed (hlater hl)]
  · intro hknown hunknown
    cases hl : second.trades.lookup btxid with
    | some height =>
        simp only [tradeState, checkTrade, hl, Option.any_some] at hunknown
        split at hunknown <;> cases hunknown
    | none =>
        rw [tradeState_of_not_confirmed hl] at hunknown
        rcases hknown [] first List.nil_prefix (by rwa [List.append_nil]) with hpending | hconf
        · rw [if_pos hpending] at hunknown
          cases hunknown
        · rw [hlater hl] at hconf
          cases hconf
  · intro height hconf
    obtain ⟨ev, hev, blockData, moves, rfl, hmem, hheight⟩ :=
      (htrades' btxid height).mp (lookup_of_confirmed hconf)
    exact ⟨blockData, moves, hev, hmem, hheight⟩

/-- A pending trade is confirmed between the two reads. -/
theorem checkTrade_atomic_mined : ∃ first second,
    Gsp.run [.pendingMove ⟨"trade"⟩] = .ok first ∧
    Gsp.run [.pendingMove ⟨"trade"⟩, .attachBlock ⟨7, [⟨"trade"⟩]⟩ []] = .ok second ∧
    tradeState first second "trade" = .ok (.confirmed 7) ∧
    tradeState second second "trade" = .ok (.confirmed 7) := by
  obtain ⟨first, second, hfirst, hsecond, _⟩ := checkTrade_atomic [.pendingMove ⟨"trade"⟩]
    [.attachBlock ⟨7, [⟨"trade"⟩]⟩ []] (by decide) "trade"
  refine ⟨first, second, hfirst, hsecond, ?_⟩
  obtain rfl := Except.ok.inj hfirst
  obtain rfl := Except.ok.inj hsecond
  exact ⟨rfl, rfl⟩

end Democrit
