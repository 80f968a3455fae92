import ChutesApi.Metasync.Model
/-!
# Who is recorded as a member of which subnet

The table has one row for each hotkey, and a row names one subnet, so the
second sync of a pass takes over the hotkeys of the first. `kept_iff` says
of every pass of every run when each hotkey is still recorded where it is
registered.
-/

namespace ChutesApi

namespace Metasync

open Python

variable {ι χ : Type}

/-- A hotkey is recorded as a member of a subnet. -/
def Recorded (table : Table ι χ) (netuid : ℤ) (hotkey : String) : Prop :=
  ∃ row, table.get? hotkey = some row ∧ row.netuid = netuid

/-- **The membership of one subnet is kept**: its hotkeys are recorded, and
no other row with a node id names it. -/
def Faithful (nodes : List (Node ι)) (table : Table ι χ) (netuid : ℤ) : Prop :=
  (∀ node ∈ nodes, Recorded table netuid node.hotkey) ∧
    ∀ hotkey row, table.get? hotkey = some row → row.netuid = netuid → 0 ≤ row.nodeId →
      hotkey ∈ nodes.map Node.hotkey

/-- The memberships of both subnets are kept. -/
def Kept (own : List (Node ι)) (affine : List (Node ι)) (table : Table ι χ) : Prop :=
  Faithful own table netuid ∧ Faithful affine table affineNetuid

/-- A checksum in the table that a node can have is that node's. Rows that no
sync wrote may have any other checksum. -/
def Checked (checksum : Node ι → χ) (table : Table ι χ) : Prop :=
  ∀ hotkey row, table.get? hotkey = some row → ∀ node, row.checksum = checksum node →
    row.toNode = node

variable [DecidableEq χ] {checksum : Node ι → χ} {table table' : Table ι χ} {hotkey : String}
  {row : MetagraphNode ι χ}

/-! ## One sync -/

/-- **An upsert** leaves its row under its hotkey and every other row as it
was: where the checksum is the same, so is the row. -/
theorem get?_upsert (hchecked : Checked checksum table) {node : Node ι} :
    (upsert ⟨node, checksum node⟩ table).1.get? hotkey =
      if hotkey = node.hotkey then some ⟨node, checksum node⟩ else table.get? hotkey := by
  unfold upsert
  split
  · exact Dict.get?_set
  · next old hold =>
    split
    · exact Dict.get?_set
    · next hsame =>
      rw [ne_eq, not_not] at hsame
      split
      · next hkey =>
        have hnode : old.toNode = node := hchecked _ _ hold node hsame
        rw [hkey, hold, ← hnode, ← hsame.trans (congrArg checksum hnode.symm)]
      · rfl

theorem Checked.upsert (hinj : Function.Injective checksum) (hchecked : Checked checksum table)
    (node : Node ι) : Checked checksum (upsert ⟨node, checksum node⟩ table).1 := by
  intro hotkey row hrow node' hsum
  rw [get?_upsert hchecked] at hrow
  split at hrow
  · obtain rfl := Option.some.inj hrow
    exact hinj hsum
  · exact hchecked hotkey row hrow node' hsum

omit [DecidableEq χ] in
theorem Checked.deleteMissing {netuid : ℤ} {nodes : List (Node ι)}
    (hchecked : Checked checksum table) : Checked checksum (deleteMissing netuid nodes table) := by
  intro hotkey row hrow
  rw [Metasync.deleteMissing, Dict.get?_filter, Option.filter_eq_some_iff] at hrow
  exact hchecked hotkey row hrow.1

/-- **The loop over the nodes** writes a row of theirs under each of their
hotkeys, and leaves the other hotkeys alone. -/
theorem foldl_syncNode (hinj : Function.Injective checksum) (nodes : List (Node ι))
    (published : List (MetagraphNode ι χ)) (hchecked : Checked checksum table) :
    Checked checksum (nodes.foldl (syncNode checksum) (table, published)).1 ∧
      (∀ hotkey ∈ nodes.map Node.hotkey, ∃ node ∈ nodes,
        (nodes.foldl (syncNode checksum) (table, published)).1.get? hotkey =
          some ⟨node, checksum node⟩) ∧
      ∀ hotkey ∉ nodes.map Node.hotkey,
        (nodes.foldl (syncNode checksum) (table, published)).1.get? hotkey =
          table.get? hotkey := by
  induction nodes generalizing table published with
  | nil => exact ⟨hchecked, by simp, fun _ _ => rfl⟩
  | cons node nodes ih =>
    rw [List.foldl_cons]
    obtain ⟨hkeep, hin, hout⟩ := ih (syncNode checksum (table, published) node).2
      (hchecked.upsert hinj node)
    refine ⟨hkeep, fun hotkey hh => ?_, fun hotkey hh => ?_⟩
    · by_cases hrest : hotkey ∈ nodes.map Node.hotkey
      · obtain ⟨node', hnode', hget⟩ := hin hotkey hrest
        exact ⟨node', List.mem_cons_of_mem node hnode', hget⟩
      · -- The row stays as this round wrote it.
        have hkey : hotkey = node.hotkey := by simpa [hrest] using hh
        refine ⟨node, List.mem_cons_self, (hout hotkey hrest).trans ?_⟩
        rw [get?_upsert hchecked, if_pos hkey]
    · rw [List.map_cons, List.mem_cons, not_or] at hh
      refine (hout hotkey hh.2).trans ?_
      rw [get?_upsert hchecked, if_neg hh.1]

/-- **What a sync leaves**, for the hotkeys of its subnet and for the others. -/
structure Synced (nodes : List (Node ι)) (netuid : ℤ) (table table' : Table ι χ) : Prop where
  written : ∀ hotkey ∈ nodes.map Node.hotkey, ∃ row, table'.get? hotkey = some row ∧
    row.netuid = netuid
  others : ∀ hotkey ∉ nodes.map Node.hotkey, ∀ row, table'.get? hotkey = some row ↔
    table.get? hotkey = some row ∧ ¬(row.netuid = netuid ∧ 0 ≤ row.nodeId)

theorem sync_of_ne_nil {netuid : ℤ} {nodes : List (Node ι)} (h : nodes ≠ []) :
    syncAndSaveMetagraph checksum netuid (.ok nodes) table =
      .ok (nodes.foldl (syncNode checksum) (deleteMissing netuid nodes table, [])) := by
  simp [syncAndSaveMetagraph, h, bind, Except.bind, pure, Except.pure]

/-- **A sync** commits nothing, or what its nodes say. -/
theorem sync_cases {netuid : ℤ} (hinj : Function.Injective checksum)
    (hchecked : Checked checksum table) (load : Except ScriptError (Fetched ι netuid)) :
    (∃ e, syncAndSaveMetagraph checksum netuid (load.map Fetched.nodes) table = .error e ∧
        ∀ fetched, load = .ok fetched → fetched.nodes = []) ∨
      ∃ fetched table' published, load = .ok fetched ∧
        syncAndSaveMetagraph checksum netuid (load.map Fetched.nodes) table =
          .ok (table', published) ∧
        Checked checksum table' ∧ Synced fetched.nodes netuid table table' := by
  rcases load with e | fetched
  · exact .inl ⟨e, rfl, fun _ h => by cases h⟩
  rcases hnodes : fetched.nodes with _ | ⟨node, nodes⟩
  · refine .inl ⟨.exception "Failed to load metagraph nodes!", ?_, ?_⟩
    · simp [syncAndSaveMetagraph, Except.map, hnodes, bind, Except.bind, throw, throwThe,
        MonadExceptOf.throw]
    · rintro _ ⟨⟩
      exact hnodes
  · have hdeleted : Checked checksum (deleteMissing netuid fetched.nodes table) :=
      hchecked.deleteMissing
    obtain ⟨hkeep, hin, hout⟩ := foldl_syncNode hinj fetched.nodes [] hdeleted
    have hne : fetched.nodes ≠ [] := by rw [hnodes]; exact List.cons_ne_nil _ _
    refine .inr ⟨fetched, _, _, rfl, sync_of_ne_nil hne, hkeep, fun hotkey hh => ?_,
      fun hotkey hh row => ?_⟩
    · obtain ⟨node', hnode', hget⟩ := hin hotkey hh
      exact ⟨_, hget, fetched.netuids node' hnode'⟩
    · rw [hout hotkey hh, deleteMissing, Dict.get?_filter, Option.filter_eq_some_iff]
      simp only [hh, not_false_eq_true, true_and, Bool.not_eq_true', decide_eq_false_iff_not]

/-! ## A pass -/

variable {own : Fetched ι netuid} {affine : Fetched ι affineNetuid} {pass : Pass ι}

theorem Checked.main (hinj : Function.Injective checksum) (hchecked : Checked checksum table) :
    Checked checksum (main checksum pass table).1 := by
  unfold Metasync.main
  rcases sync_cases hinj hchecked pass.own with ⟨e, he, -⟩ | ⟨own, t, p, -, ht, hc, -⟩
  · rw [he]
    exact hchecked
  rw [ht]
  rcases sync_cases hinj hc pass.affine with ⟨e, he, -⟩ | ⟨affine, t', p', -, ht', hc', -⟩
  · simp only [he]
    exact hc
  · simp only [ht']
    exact hc'

/-- **A full pass** is one sync after the other. -/
theorem main_of_full (hinj : Function.Injective checksum) (hchecked : Checked checksum table)
    (hown : own.nodes ≠ []) (haffine : affine.nodes ≠ []) :
    ∃ between, Synced own.nodes netuid table between ∧
      Synced affine.nodes affineNetuid between
        (Metasync.main checksum ⟨.ok own, .ok affine⟩ table).1 := by
  unfold Metasync.main
  rcases sync_cases hinj hchecked (.ok own) with ⟨e, -, he⟩ | ⟨own', t, p, ⟨⟩, ht, hc, hs⟩
  · exact absurd (he own rfl) hown
  rcases sync_cases hinj hc (.ok affine) with ⟨e, -, he⟩ | ⟨affine', t', p', ⟨⟩, ht', -, hs'⟩
  · exact absurd (he affine rfl) haffine
  refine ⟨t, hs, ?_⟩
  simp only [ht, ht']
  exact hs'

omit [DecidableEq χ] in
/-- After both syncs the memberships are kept exactly when no hotkey is
registered on both subnets. -/
theorem kept_of_synced {between : Table ι χ} (hown : Synced own.nodes netuid table between)
    (haffine : Synced affine.nodes affineNetuid between table') :
    Kept own.nodes affine.nodes table' ↔
      (own.nodes.map Node.hotkey).Disjoint (affine.nodes.map Node.hotkey) := by
  have hne : netuid ≠ affineNetuid := by decide
  constructor
  · -- A shared hotkey is left with the second subnet.
    intro hkept hotkey ho ha
    obtain ⟨node, hnode, rfl⟩ := List.mem_map.1 ho
    obtain ⟨row, hrow, hnet⟩ := hkept.1.1 node hnode
    obtain ⟨row', hrow', hnet'⟩ := haffine.written _ ha
    rw [hrow, Option.some.injEq] at hrow'
    exact hne (hnet.symm.trans (hrow' ▸ hnet'))
  · intro hdisj
    refine ⟨⟨fun node hnode => ?_, fun hotkey row hrow hnet hid => ?_⟩,
      ⟨fun node hnode => haffine.written _ (List.mem_map_of_mem hnode),
        fun hotkey row hrow hnet hid => ?_⟩⟩
    · have ho := List.mem_map_of_mem (f := Node.hotkey) hnode
      obtain ⟨row, hrow, hnet⟩ := hown.written _ ho
      refine ⟨row, (haffine.others _ (hdisj ho) row).2 ⟨hrow, fun h => ?_⟩, hnet⟩
      exact hne (hnet.symm.trans h.1)
    · by_contra hnot
      have ha : hotkey ∉ affine.nodes.map Node.hotkey := by
        intro ha
        obtain ⟨row', hrow', hnet'⟩ := haffine.written _ ha
        rw [hrow, Option.some.injEq] at hrow'
        exact hne (hnet.symm.trans (hrow' ▸ hnet'))
      have hbetween := ((haffine.others _ ha row).1 hrow).1
      exact ((hown.others _ hnot row).1 hbetween).2 ⟨hnet, hid⟩
    · by_contra hnot
      exact ((haffine.others _ hnot row).1 hrow).2 ⟨hnet, hid⟩

/-! ## Runs -/

/-- The passes over the table, with whatever metagraphs they load. -/
def system (checksum : Node ι → χ) : Lts (Table ι χ) (Pass ι) where
  init := Checked checksum
  step table pass := some (Metasync.main checksum pass table).1

theorem checked_of_run (hinj : Function.Injective checksum) {passes : List (Pass ι)}
    (h : (system checksum).Run passes table) : Checked checksum table :=
  h.invariant (fun _ h => h) fun _ _ _ hchecked _ hs => by
    obtain rfl := Option.some.inj hs
    exact hchecked.main hinj

/-- **After a full pass every membership is recorded exactly when the two
subnets share no hotkey**, whatever the passes before it loaded or failed
to load. -/
theorem kept_iff (hinj : Function.Injective checksum) {passes : List (Pass ι)}
    (hown : own.nodes ≠ []) (haffine : affine.nodes ≠ [])
    (h : (system checksum).Run (passes ++ [⟨.ok own, .ok affine⟩]) table) :
    Kept own.nodes affine.nodes table ↔
      (own.nodes.map Node.hotkey).Disjoint (affine.nodes.map Node.hotkey) := by
  obtain ⟨before, hrun, -, hs⟩ := h.of_concat
  obtain rfl := Option.some.inj hs
  obtain ⟨between, h64, h120⟩ :=
    main_of_full hinj (checked_of_run hinj hrun) hown haffine
  exact kept_of_synced h64 h120

/-- One hotkey on the scored subnet. -/
def oneOwn : Fetched Unit netuid := ⟨[⟨"5A", "cold", 0, netuid, ()⟩], by decide⟩

/-- One hotkey on the other subnet. -/
def oneAffine (hotkey : String) : Fetched Unit affineNetuid :=
  ⟨[⟨hotkey, "cold", 0, affineNetuid, ()⟩], by simp⟩

/-- The first pass over an empty table. -/
theorem run_first (pass : Pass Unit) :
    (system id).Run ([] ++ [pass]) (Metasync.main id pass .empty).1 :=
  (Lts.Reach.init fun _ _ h => by cases h).step trivial rfl

theorem kept_first :
    Kept oneOwn.nodes (oneAffine "5B").nodes
        (Metasync.main id ⟨.ok oneOwn, .ok (oneAffine "5B")⟩ .empty).1 ↔
      (oneOwn.nodes.map Node.hotkey).Disjoint ((oneAffine "5B").nodes.map Node.hotkey) :=
  kept_iff Function.injective_id (by decide) (by decide) (run_first _)

/-- **A membership is not always kept**: a hotkey on both subnets is recorded
on the second one only. -/
theorem not_kept : ¬ ∀ (passes : List (Pass Unit)) (own : Fetched Unit netuid)
    (affine : Fetched Unit affineNetuid) (table : Table Unit (Node Unit)),
    own.nodes ≠ [] → affine.nodes ≠ [] →
      (system id).Run (passes ++ [⟨.ok own, .ok affine⟩]) table →
        Kept own.nodes affine.nodes table := by
  intro h
  have hkept := h [] oneOwn (oneAffine "5A") _ (by decide) (by decide) (run_first _)
  obtain ⟨row, hrow, hnet⟩ := hkept.1.1 ⟨"5A", "cold", 0, netuid, ()⟩ (by decide)
  have hlast : row.netuid = affineNetuid := by
    have hget : (Metasync.main id ⟨.ok oneOwn, .ok (oneAffine "5A")⟩ .empty).1.get? "5A" =
        some ⟨⟨"5A", "cold", 0, affineNetuid, ()⟩, ⟨"5A", "cold", 0, affineNetuid, ()⟩⟩ := by
      decide
    rw [Option.some.inj (hrow.symm.trans hget)]
  exact absurd (hnet.symm.trans hlast) (by decide)

end Metasync

end ChutesApi
