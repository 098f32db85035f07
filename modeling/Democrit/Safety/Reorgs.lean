import Democrit.GspServer
import Democrit.Lib.Ranking
import Democrit.Lib.Undo
import Democrit.Safety.CheckTrade
import Mathlib.Data.List.Infix

/-!
# The GSP follows the chain

Blocks can be detached again.  Then the GSP goes back to a state that it had before, and what follows
is another chain.  **None of this leaves a trace**: the state that the GSP shows is the list of the moves in
the chain as it is now, whatever has become of other blocks before (`state_of_chain`).

`checktrade` reads twice, and `checkTrade_atomic` does not hold with reorgs.  What the comment in
`CheckTrade` expects is true: only if a block with the trade is detached between the two reads can the
answer be one that no single look would have given, and an answer `confirmed` is right even then
(`checktrade_answers`).  The daemon can always read the answer, and the assertions it makes about it
hold.

That the node goes back to what it was is what libxayagame promises; `Undo` is the general argument.
-/

namespace Democrit

open Gsp

/-! ## The chain -/

/-- What the database has: the table, and the height. -/
def Gsp.stored (gsp : Gsp) : (AList fun _ : String => UInt32) × UInt32 := (gsp.trades, gsp.height)

/-- `UpdateState` as it works on the database. -/
def storeBlock (s : (AList fun _ : String => UInt32) × UInt32) (blockData : BlockData) :
    Except GspCheck ((AList fun _ : String => UInt32) × UInt32) :=
  (Gsp.updateState blockData { trades := s.1, height := s.2 }).map Gsp.stored

lemma storeBlock_stored (gsp : Gsp) (blockData : BlockData) :
    storeBlock gsp.stored blockData = (gsp.updateState blockData).map Gsp.stored := by
  simp only [storeBlock, Gsp.stored, updateState]
  generalize blockData.moves.foldlM (m := Except GspCheck) _ gsp.trades = r
  cases r <;> rfl

/-- What the event does to the chain. -/
def NodeEvent.moves : NodeEvent → List (Undo.Move BlockData)
  | .forward ev => (ev.block?.map Undo.Move.attach).toList
  | .detachBlock _ => [.detach]

/-- The chain after the events, the last block first. -/
def currentChain (events : List NodeEvent) : List BlockData :=
  Undo.chain (events.flatMap NodeEvent.moves)

/-- The node as a machine that follows a chain. -/
def GspNode.machine (node : GspNode) : Undo.Machine ((AList fun _ : String => UInt32) × UInt32) :=
  ⟨node.gsp.stored, node.undo.map Gsp.stored⟩

/-- What every chain of blocks is like: no btxid is in it twice, and the heights ascend.  The GSP reads
heights as `int`. -/
structure ProperChain (chain : List BlockData) : Prop where
  distinct : (chain.flatMap fun b => b.moves.map parseMove).Nodup
  ascending : chain.Pairwise fun later earlier => earlier.height < later.height
  small : ∀ b ∈ chain, b.height.toNat < 2 ^ 31

/-- The height of the last block. -/
def chainHeight (chain : List BlockData) : UInt32 := (chain.head?.map BlockData.height).getD 0

/-- Every chain that the run passes is proper. -/
def Consistent (events : List NodeEvent) : Prop :=
  ∀ mid, mid <+: events → ProperChain (currentChain mid)

instance properChainDecidable (chain : List BlockData) : Decidable (ProperChain chain) :=
  decidable_of_iff ((chain.flatMap fun b => b.moves.map parseMove).Nodup ∧
    (chain.Pairwise fun later earlier => earlier.height < later.height) ∧
    ∀ b ∈ chain, b.height.toNat < 2 ^ 31)
    ⟨fun h => ⟨h.1, h.2.1, h.2.2⟩, fun h => ⟨h.distinct, h.ascending, h.small⟩⟩

instance consistentDecidable (events : List NodeEvent) : Decidable (Consistent events) :=
  decidable_of_iff (∀ mid ∈ events.inits, ProperChain (currentChain mid))
    (by simp only [List.mem_inits, Consistent])

lemma Consistent.earlier {events events' : List NodeEvent} (h : Consistent events')
    (hp : events <+: events') : Consistent events := fun mid hmid => h mid (hmid.trans hp)

lemma currentChain_append_singleton (events : List NodeEvent) (ev : NodeEvent) :
    currentChain (events ++ [ev]) = ev.moves.foldl Undo.grow (currentChain events) := by
  simp [currentChain, Undo.chain, List.flatMap_append]

/-! ## What the table has -/

/-- The table is that of the chain. -/
structure TableOf (chain : List BlockData)
    (s : (AList fun _ : String => UInt32) × UInt32) : Prop where
  lookup : ∀ btxid height, s.1.lookup btxid = some height ↔
    ∃ b ∈ chain, btxid ∈ b.moves.map parseMove ∧ height = b.height
  height : s.2 = chainHeight chain

/-- A proper chain can be run through. -/
lemma ProperChain.run {chain : List BlockData} (h : ProperChain chain) :
    ∃ s, chain.reverse.foldlM storeBlock (∅, 0) = .ok s ∧ TableOf chain s := by
  induction chain with
  | nil => exact ⟨_, rfl, by simp, rfl⟩
  | cons b chain ih =>
      have hdistinct := h.distinct
      rw [List.flatMap_cons, List.nodup_append] at hdistinct
      obtain ⟨s, hs, htable⟩ := ih ⟨hdistinct.2.1, h.ascending.of_cons,
        fun b' hb' => h.small b' (List.mem_cons_of_mem _ hb')⟩
      have hnew : ∀ btxid ∈ b.moves.map parseMove, s.1.lookup btxid = none := by
        intro btxid hmem
        refine Option.eq_none_iff_forall_ne_some.mpr fun height hsome => ?_
        obtain ⟨b', hb', hmem', _⟩ := (htable.lookup btxid height).mp hsome
        exact hdistinct.2.2 btxid hmem btxid (List.mem_flatMap.mpr ⟨b', hb', hmem'⟩) rfl
      obtain ⟨trades, htrades, hlookup⟩ :=
        @updateState_ok _ { trades := s.1, height := s.2 } hdistinct.1 hnew
      refine ⟨(trades, b.height), ?_, fun btxid height => ?_, rfl⟩
      · rw [List.reverse_cons, List.foldlM_append, hs]
        show (storeBlock s b >>= pure) = _
        rw [storeBlock, htrades]
        rfl
      · rw [hlookup]
        split
        · rename_i hmem
          constructor
          · intro heq
            exact ⟨b, by simp, hmem, (Option.some.inj heq).symm⟩
          · rintro ⟨b', hb', hmem', rfl⟩
            rcases List.mem_cons.mp hb' with rfl | hb'
            · rfl
            · exact absurd rfl
                (hdistinct.2.2 btxid hmem btxid (List.mem_flatMap.mpr ⟨b', hb', hmem'⟩))
        · rename_i hmem
          rw [htable.lookup]
          simp only [List.exists_mem_cons_iff, hmem, false_and, false_or]

/-! ## The node follows the chain -/

/-- Pending moves are not in the database. -/
lemma stored_addPendingMove (moves : List GspMove) (gsp : Gsp) :
    (moves.foldl (fun gsp mv => gsp.addPendingMove mv) gsp).stored = gsp.stored := by
  induction moves generalizing gsp with
  | nil => rfl
  | cons mv moves ih => exact ih _

lemma machine_rebuilt (moves : List GspMove) (gsp : Gsp) (undo : List Gsp) :
    GspNode.machine ⟨moves.foldl (fun gsp mv => gsp.addPendingMove mv) gsp.clear, undo⟩
      = ⟨gsp.stored, undo.map Gsp.stored⟩ := by
  rw [GspNode.machine, stored_addPendingMove]
  rfl

/-- What an event does to the machine. -/
lemma event_machine {node node' : GspNode} {ev : NodeEvent} (h : node.event ev = .ok node') :
    ev.moves.foldlM (Undo.Machine.move storeBlock) node.machine = .ok node'.machine := by
  cases ev with
  | forward ev =>
      cases ev with
      | pendingMove mv =>
          obtain rfl := Except.ok.inj h
          rfl
      | resetPending moves =>
          obtain rfl := Except.ok.inj h
          rw [machine_rebuilt]
          rfl
      | attachBlock blockData moves =>
          have hstore := storeBlock_stored node.gsp blockData
          cases hupdate : node.gsp.updateState blockData with
          | error e => simp [GspNode.event, Gsp.event, hupdate, bind, Except.bind] at h
          | ok gsp =>
              rw [hupdate] at hstore
              have hnode : node' = ⟨moves.foldl (fun gsp mv => gsp.addPendingMove mv) gsp.clear,
                  node.gsp :: node.undo⟩ := by
                simpa [GspNode.event, Gsp.event, hupdate, bind, Except.bind, pure, Except.pure,
                  GspEvent.block?] using h.symm
              show (Undo.Machine.move storeBlock node.machine (.attach blockData) >>= pure) = _
              rw [bind_pure, Undo.Machine.move,
                show storeBlock node.machine.current blockData = .ok gsp.stored from hstore, hnode,
                machine_rebuilt]
              rfl
  | detachBlock moves =>
      show (Undo.Machine.move storeBlock node.machine .detach >>= pure) = _
      rw [bind_pure]
      cases hundo : node.undo with
      | nil =>
          rw [GspNode.event, hundo] at h
          obtain rfl := Except.ok.inj h
          simp [Undo.Machine.move, GspNode.machine, hundo]
      | cons former undo =>
          rw [GspNode.event, hundo] at h
          obtain rfl := Except.ok.inj h
          rw [machine_rebuilt]
          simp only [Undo.Machine.move, GspNode.machine, hundo, List.map_cons]
          rfl

/-- An event goes through if it does so for the machine. -/
lemma event_returns {node : GspNode} {ev : NodeEvent}
    {m : Undo.Machine ((AList fun _ : String => UInt32) × UInt32)}
    (h : ev.moves.foldlM (Undo.Machine.move storeBlock) node.machine = .ok m) :
    ∃ node', node.event ev = .ok node' := by
  cases ev with
  | forward ev =>
      cases ev with
      | pendingMove mv => exact ⟨_, rfl⟩
      | resetPending moves => exact ⟨_, rfl⟩
      | attachBlock blockData moves =>
          have hstore := storeBlock_stored node.gsp blockData
          cases hupdate : node.gsp.updateState blockData with
          | error e =>
              rw [hupdate] at hstore
              have h : (Undo.Machine.move storeBlock node.machine (.attach blockData) >>= pure) = .ok m := h
              rw [bind_pure, Undo.Machine.move,
                show storeBlock node.machine.current blockData = .error e from hstore] at h
              cases h
          | ok gsp =>
              rw [GspNode.event, Gsp.event, hupdate]
              exact ⟨_, rfl⟩
  | detachBlock moves =>
      rw [GspNode.event]
      split
      · exact ⟨_, rfl⟩
      · exact ⟨_, rfl⟩

/-- **Every consistent run goes through**, and the database is that of the chain. -/
theorem nodeRun_ok {events : List NodeEvent} (h : Consistent events) :
    ∃ node, GspNode.run events = .ok node ∧ TableOf (currentChain events) node.gsp.stored := by
  have hrun : ∃ node, GspNode.run events = .ok node ∧
      Undo.Follows storeBlock (∅, 0) node.machine (currentChain events) := by
    refine Loops.foldlM_visits (fun seen (node : GspNode) =>
      Undo.Follows storeBlock (∅, 0) node.machine (currentChain seen)) ?_ .start
    intro seen ev hseen node hf
    have hproper := h _ hseen
    rw [currentChain_append_singleton] at hproper ⊢
    -- an event makes at most one move
    have hmoves : ∃ m, ev.moves.foldlM (Undo.Machine.move storeBlock) node.machine = .ok m ∧
        Undo.Follows storeBlock (∅, 0) m (ev.moves.foldl Undo.grow (currentChain seen)) := by
      have hone : ∀ mv, ev.moves = [mv] → ∃ m,
          ev.moves.foldlM (Undo.Machine.move storeBlock) node.machine = .ok m ∧
          Undo.Follows storeBlock (∅, 0) m (ev.moves.foldl Undo.grow (currentChain seen)) := by
        intro mv hmv
        rw [hmv] at hproper ⊢
        obtain ⟨s, hs, _⟩ := hproper.run
        obtain ⟨m, hm⟩ := hf.move_returns hs
        refine ⟨m, ?_, hf.move hm⟩
        show (node.machine.move storeBlock mv >>= pure) = .ok m
        rw [bind_pure, hm]
      cases ev with
      | forward ev =>
          cases ev with
          | attachBlock blockData moves => exact hone _ rfl
          | pendingMove mv => exact ⟨_, rfl, hf⟩
          | resetPending moves => exact ⟨_, rfl, hf⟩
      | detachBlock moves => exact hone _ rfl
    obtain ⟨m, hm, hfm⟩ := hmoves
    obtain ⟨node', hnode⟩ := event_returns hm
    obtain rfl := Except.ok.inj (hm.symm.trans (event_machine hnode))
    exact ⟨node', hnode, hfm⟩
  obtain ⟨node, hnode, hf⟩ := hrun
  obtain ⟨s, hs, htable⟩ := (h events (List.prefix_refl _)).run
  obtain rfl : s = node.gsp.stored := Except.ok.inj (hs.symm.trans hf.state)
  exact ⟨node, hnode, htable⟩

/-! ## The state for a front end -/

/-- The moves of a chain with the heights of their blocks. -/
def chainEntries (chain : List BlockData) : List ((_ : String) × UInt32) :=
  chain.flatMap fun b => b.moves.map fun mv => ⟨parseMove mv, b.height⟩

/-- These, in order, as JSON. -/
def chainJson (chain : List BlockData) : Json :=
  .obj (((chainEntries chain).insertionSort fun a b => a.1 ≤ b.1).map fun e =>
    (e.1, .int e.2.toInt32.toInt))

lemma mem_chainEntries {chain : List BlockData} {btxid : String} {height : UInt32} :
    ⟨btxid, height⟩ ∈ chainEntries chain ↔
      ∃ b ∈ chain, btxid ∈ b.moves.map parseMove ∧ height = b.height := by
  simp only [chainEntries, List.mem_flatMap, List.mem_map, Sigma.mk.injEq, heq_eq_eq]
  constructor
  · rintro ⟨b, hb, mv, hmv, rfl, rfl⟩
    exact ⟨b, hb, ⟨mv, hmv, rfl⟩, rfl⟩
  · rintro ⟨b, hb, ⟨mv, hmv, rfl⟩, rfl⟩
    exact ⟨b, hb, mv, hmv, rfl, rfl⟩

/-- **The state is that of the chain.**  Whatever blocks were attached and detached before, the GSP
does not abort, and what it shows is the list of the moves in the chain as it is now. -/
theorem state_of_chain {events : List NodeEvent} (h : Consistent events) :
    ∃ node, GspNode.run events = .ok node ∧
      node.gsp.getStateAsJson = chainJson (currentChain events) ∧
      node.gsp.height = chainHeight (currentChain events) := by
  obtain ⟨node, hnode, htable⟩ := nodeRun_ok h
  have hdistinct := (h events (List.prefix_refl _)).distinct
  refine ⟨node, hnode, ?_, htable.height⟩
  have hnodup : (node.gsp.trades.entries.map Sigma.fst).Nodup := node.gsp.trades.nodupKeys
  have hnodup' : ((chainEntries (currentChain events)).map Sigma.fst).Nodup := by
    simpa only [chainEntries, List.map_flatMap, List.map_map, Function.comp_def] using hdistinct
  have hsort := @Ranking.eq_of_sortedLT _ _ _ (Sigma.fst : ((_ : String) × UInt32) → String)
    (node.gsp.trades.entries.insertionSort fun a b => a.1 ≤ b.1)
    ((chainEntries (currentChain events)).insertionSort fun a b => a.1 ≤ b.1) ?_
    (Ranking.sortedLT_sort (fun _ _ => Iff.rfl) hnodup)
    (Ranking.sortedLT_sort (fun _ _ => Iff.rfl) hnodup')
  · rw [getStateAsJson, hsort]
    rfl
  · rintro ⟨btxid, height⟩
    rw [List.mem_insertionSort, List.mem_insertionSort, mem_chainEntries, ← htable.lookup]
    exact AList.mem_lookup_iff.symm

/-- Two blocks, the second of which is replaced by another one. -/
def reorgEvents : List NodeEvent :=
  [.forward (.attachBlock ⟨7, [⟨"one"⟩]⟩ []), .forward (.attachBlock ⟨8, [⟨"two"⟩, ⟨"three"⟩]⟩ []),
    .detachBlock [⟨"two"⟩, ⟨"three"⟩], .forward (.attachBlock ⟨8, [⟨"three"⟩]⟩ [⟨"two"⟩])]

/-- A move of the block that was detached is not shown any more. -/
theorem state_of_chain_reorg : ∃ node, GspNode.run reorgEvents = .ok node ∧
    node.gsp.getStateAsJson = .obj [("one", .int 7), ("three", .int 8)] ∧ node.gsp.height = 8 := by
  obtain ⟨node, hnode, hjson, hheight⟩ := @state_of_chain reorgEvents (by decide)
  refine ⟨node, hnode, hjson.trans ?_, hheight.trans rfl⟩
  rfl

/-! ## Two reads with reorgs -/

/-- What a single look at the node says about the trade. -/
def look (node : GspNode) (btxid : String) : Except GspCheck GspState :=
  tradeState node.gsp node.gsp btxid

/-- The trade is in a block of the chain, at this height. -/
def OnChain (btxid : String) (height : UInt32) (chain : List BlockData) : Prop :=
  ∃ b ∈ chain, btxid ∈ b.moves.map parseMove ∧ height = b.height

/-- A block with the trade is detached in the course of the events. -/
def Detaches (btxid : String) (before between : List NodeEvent) : Prop :=
  ∃ mid moves b rest, mid ++ [.detachBlock moves] <+: between ∧
    currentChain (before ++ mid) = b :: rest ∧ btxid ∈ b.moves.map parseMove

/-- A trade that is on the chain before and not after was on a block that was detached. -/
lemma detaches_of_lost {btxid : String} {before : List NodeEvent} : ∀ {between : List NodeEvent},
    (∃ height, OnChain btxid height (currentChain before)) →
    (∀ height, ¬ OnChain btxid height (currentChain (before ++ between))) →
    Detaches btxid before between := by
  intro between hon
  induction between using List.reverseRecOn with
  | nil =>
      intro hoff
      obtain ⟨height, h⟩ := hon
      rw [List.append_nil] at hoff
      exact absurd h (hoff height)
  | append_singleton between ev ih =>
      intro hoff
      by_cases hmid : ∃ height, OnChain btxid height (currentChain (before ++ between))
      · obtain ⟨height, b, hb, hmem, rfl⟩ := hmid
        rw [← List.append_assoc, currentChain_append_singleton] at hoff
        cases ev with
        | forward ev =>
            -- what is attached leaves the blocks below as they are
            refine absurd ⟨b, ?_, hmem, rfl⟩ (hoff b.height)
            cases ev with
            | pendingMove mv => exact hb
            | resetPending moves => exact hb
            | attachBlock blockData moves => exact List.mem_cons_of_mem _ hb
        | detachBlock moves =>
            have hne : currentChain (before ++ between) ≠ [] := List.ne_nil_of_mem hb
            obtain ⟨top, rest, hchain⟩ := List.exists_cons_of_ne_nil hne
            refine ⟨between, moves, top, rest, List.prefix_refl _, hchain, ?_⟩
            rw [hchain] at hb
            rcases List.mem_cons.mp hb with rfl | hb
            · exact hmem
            · refine absurd ⟨b, ?_, hmem, rfl⟩ (hoff b.height)
              simpa [NodeEvent.moves, Undo.grow, hchain] using hb
      · obtain ⟨mid, moves, b, rest, hpre, hchain, hmem⟩ := ih (not_exists.mp hmid)
        exact ⟨mid, moves, b, rest, hpre.trans (List.prefix_append _ _), hchain, hmem⟩

/-! ## What the server answers -/

lemma asUInt?_toNat (h : UInt32) : (Json.int h.toNat).asUInt? = some h := by
  have hlt := h.toNat_lt
  rw [Json.asUInt?, if_pos (by omega), Int.toNat_natCast, UInt32.ofNat_toNat]

lemma toInt_toInt32_of_lt {h : UInt32} (hlt : h.toNat < 2 ^ 31) : h.toInt32.toInt = h.toNat := by
  rw [← Int32.toInt_toBitVec, UInt32.toBitVec_toInt32, BitVec.toInt_eq_toNat_of_lt]
  · rfl
  · rw [UInt32.toNat_toBitVec]
    omega

/-- **What the server writes, the daemon reads**, if the height is one that the server can write. -/
lemma readChecktrade_tradeJson {data : TradeData}
    (hsmall : ∀ height, data.state = .confirmed height → height.toNat < 2 ^ 31) :
    readChecktrade (tradeJson data) = .ok (data.gspHeight, data.state) := by
  obtain ⟨state, gspHeight⟩ := data
  cases state with
  | unknown =>
      simp [tradeJson, Json.setMember, readChecktrade, Json.get, Json.member, Json.isObject, Json.string?,
        asUInt?_toNat]
  | pending =>
      simp [tradeJson, Json.setMember, readChecktrade, Json.get, Json.member, Json.isObject, Json.string?,
        asUInt?_toNat]
  | confirmed height =>
      simp [tradeJson, Json.setMember, readChecktrade, Json.get, Json.member, Json.isObject, Json.string?,
        asUInt?_toNat, toInt_toInt32_of_lt (hsmall height rfl)]

/-- What `CheckTrade` finds, when the table is that of a proper chain. -/
lemma checkTrade_onChain {first second : Gsp} {chain : List BlockData} (hproper : ProperChain chain)
    (htable : TableOf chain second.stored) (btxid : String) :
    ∃ data, checkTrade first second btxid = .ok data ∧ data.gspHeight = second.height ∧
      (∀ height, data.state = .confirmed height ↔ OnChain btxid height chain) ∧
      ((∀ height, ¬ OnChain btxid height chain) →
        data.state = if first.pending.isMember btxid then .pending else .unknown) := by
  have hlookup : ∀ height, second.trades.lookup btxid = some height ↔ OnChain btxid height chain :=
    htable.lookup btxid
  cases hl : second.trades.lookup btxid with
  | none =>
      have hoff : ∀ height, ¬ OnChain btxid height chain := by
        intro height
        rw [← hlookup, hl]
        simp
      refine ⟨⟨if first.pending.isMember btxid then .pending else .unknown, second.height⟩, ?_, rfl, ?_,
        fun _ => rfl⟩
      · simp [checkTrade, hl]
      · intro height
        refine iff_of_false ?_ (hoff height)
        dsimp only
        split <;> simp
  | some height =>
      have hon := (hlookup height).mp hl
      obtain ⟨b, hb, _, rfl⟩ := hon
      have hpos : ¬ b.height.toInt32 < 0 := by
        rw [Int32.lt_iff_toInt_lt, toInt_toInt32_of_lt (hproper.small b hb)]
        simp
      refine ⟨⟨.confirmed b.height, second.height⟩, ?_, rfl, fun h => ?_, fun hoff => ?_⟩
      · simp [checkTrade, hl, hpos]
      · rw [← hlookup, hl]
        simp
      · exact absurd ((hlookup b.height).mp hl) (hoff _)

/-- A block of the chain is not above its end. -/
lemma ProperChain.height_le {chain : List BlockData} (h : ProperChain chain) {b : BlockData}
    (hb : b ∈ chain) : b.height ≤ chainHeight chain := by
  cases chain with
  | nil => simp at hb
  | cons top rest =>
      rcases List.mem_cons.mp hb with rfl | hb
      · exact UInt32.le_refl _
      · exact UInt32.le_of_lt ((List.pairwise_cons.mp h.ascending).1 b hb)

/-- What there is to be seen of a trade: how high the chain is, and where the trade is on it. -/
structure Sees (btxid : String) (chain : List BlockData) (curHeight : UInt32) (state : GspState) :
    Prop where
  height : curHeight = chainHeight chain
  confirmed : ∀ c, state = .confirmed c ↔ OnChain btxid c chain
  valid : ∀ c, state = .confirmed c → c ≤ curHeight

/-- Every answer is about the chain at the second read, and can be read. -/
lemma checktrade_sees {before between : List NodeEvent} (h : Consistent (before ++ between))
    {first second : GspNode} (hsecond : GspNode.run (before ++ between) = .ok second)
    (btxid : String) : ∃ data, checkTrade first.gsp second.gsp btxid = .ok data ∧
      readChecktrade (tradeJson data) = .ok (data.gspHeight, data.state) ∧
      Sees btxid (currentChain (before ++ between)) data.gspHeight data.state ∧
      ((∀ height, ¬ OnChain btxid height (currentChain (before ++ between))) →
        data.state = if first.gsp.pending.isMember btxid then .pending else .unknown) := by
  obtain ⟨second', hsecond', htable⟩ := nodeRun_ok h
  obtain rfl := Except.ok.inj (hsecond'.symm.trans hsecond)
  have hproper := h _ (List.prefix_refl _)
  obtain ⟨data, hdata, hheight, hconf, hother⟩ :=
    @checkTrade_onChain first.gsp _ _ hproper htable btxid
  refine ⟨data, hdata, ?_, ⟨hheight.trans htable.height, hconf, ?_⟩, hother⟩
  · refine readChecktrade_tradeJson fun height hh => ?_
    obtain ⟨b, hb, _, rfl⟩ := (hconf height).mp hh
    exact hproper.small b hb
  · intro height hh
    obtain ⟨b, hb, _, rfl⟩ := (hconf height).mp hh
    rw [hheight.trans htable.height]
    exact hproper.height_le hb

/-- **The server's answers with reorgs.**  In a run in which blocks may be detached, let `checktrade`
read the pending moves after the events `before`, and the table after `between` has happened as well.
The answer is one that the daemon can read.  It gives the height of the chain as it is at the second
read, and it is `confirmed` exactly if the trade is on that chain, with the height of its block, which is
not above that of the chain.  And it is what a single look at one of the two instants would have given,
but for one case: a block with the trade was detached in between, and the trade is not on the chain any
more. -/
theorem checktrade_answers (before between : List NodeEvent)
    (h : Consistent (before ++ between)) (btxid : String) :
    ∃ first second json curHeight state, GspNode.run before = .ok first ∧
      GspNode.run (before ++ between) = .ok second ∧
      checktrade first.gsp second.gsp btxid = .ok json ∧
      readChecktrade json = .ok (curHeight, state) ∧
      Sees btxid (currentChain (before ++ between)) curHeight state ∧
      (look first btxid = .ok state ∨ look second btxid = .ok state ∨
        Detaches btxid before between ∧
          ∀ height, ¬ OnChain btxid height (currentChain (before ++ between))) := by
  obtain ⟨first, hfirst, htable⟩ := nodeRun_ok (h.earlier (List.prefix_append before between))
  obtain ⟨second, hsecond, htable'⟩ := nodeRun_ok h
  obtain ⟨data, hdata, hread, hsees, hother⟩ := @checktrade_sees _ _ h first second hsecond btxid
  refine ⟨first, second, _, _, _, hfirst, hsecond, ?_, hread, hsees, ?_⟩
  · rw [checktrade, hdata]
    rfl
  · by_cases hon : ∃ height, OnChain btxid height (currentChain (before ++ between))
    -- a trade that is on the chain: the second read decides alone
    · refine Or.inr (Or.inl ?_)
      obtain ⟨height, hon⟩ := hon
      have hlookup := (htable'.lookup btxid height).mpr hon
      rw [look, @tradeState_of_confirmed _ first.gsp _ _ (by
        rw [show second.gsp.trades.lookup btxid = some height from hlookup]; rfl), tradeState, hdata]
      rfl
    · have hoff := not_exists.mp hon
      by_cases hon' : ∃ height, OnChain btxid height (currentChain before)
      · exact Or.inr (Or.inr ⟨detaches_of_lost hon' hoff, hoff⟩)
      -- the table has not had it at the first read either
      · refine Or.inl ?_
        have hnone : first.gsp.trades.lookup btxid = none :=
          Option.eq_none_iff_forall_ne_some.mpr fun height hsome =>
            hon' ⟨height, (htable.lookup btxid height).mp hsome⟩
        rw [look, tradeState_of_not_confirmed hnone, hother hoff]

/-- The block with the trade is detached between the two reads: the trade was confirmed and is pending
now, and the answer is that it is unknown. -/
theorem checktrade_answers_reorg : ∃ first second json curHeight state,
    GspNode.run (reorgEvents.take 2) = .ok first ∧ GspNode.run (reorgEvents.take 3) = .ok second ∧
    checktrade first.gsp second.gsp "two" = .ok json ∧
    readChecktrade json = .ok (curHeight, state) ∧ curHeight = 7 ∧ state = .unknown ∧
    look first "two" = .ok (.confirmed 8) ∧ look second "two" = .ok .pending := by
  obtain ⟨first, second, json, curHeight, state, hfirst, hsecond, hjson, hread, hsees, _⟩ :=
    checktrade_answers (reorgEvents.take 2) [.detachBlock [⟨"two"⟩, ⟨"three"⟩]] (by decide) "two"
  refine ⟨first, second, json, curHeight, state, hfirst, hsecond, hjson, hread, hsees.height, ?_⟩
  obtain rfl := Except.ok.inj hfirst
  obtain rfl := Except.ok.inj hsecond
  obtain rfl := Except.ok.inj hjson
  have hpair : (curHeight, state) = ((7 : UInt32), GspState.unknown) :=
    Except.ok.inj (hread.symm.trans rfl)
  exact ⟨congrArg Prod.snd hpair, rfl, rfl⟩

end Democrit
