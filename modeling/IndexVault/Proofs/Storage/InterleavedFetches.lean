import IndexVault.Proofs.Storage.DisjointBatches
import IndexVault.Proofs.Storage.SwapHistory

/-! Fetches in the midst of other clients' batches. A store of maps is asked once for all identifiers, a
database once for every 500 of them, and between two queries any batch may commit. So each query reads
one committed state, and later ones no earlier states; the whole answer is what one state holds whatever
happens if, and only if, one query is enough (`fetch_snapshot_iff`). -/
namespace IndexVault

namespace SortedMap

variable {α β : Type} [Ord α] [Std.TransOrd α] [Std.LawfulEqOrd α] [DecidableEq α]

theorem lineValue?_lookups (m : SortedMap α β) {keys : List α} (h : keys.Nodup) (k : α) :
    lineValue? k (keys.filterMap fun k => (m.get? k).map fun v => (k, v)) =
      if k ∈ keys then m.get? k else none := by
  have hlines := distinctKeys_lookups m h
  apply Option.ext
  intro v
  rw [lineValue?_eq_some_iff_mem hlines, List.mem_filterMap]
  constructor
  · rintro ⟨k', hk', hv⟩
    obtain ⟨v', hv', heq⟩ := Option.map_eq_some_iff.1 hv
    cases heq
    rwa [if_pos hk']
  · intro hv
    split at hv
    · rename_i hk
      exact ⟨k, hk, by rw [hv]; rfl⟩
    · cases hv

/-- A look-up of several keys finds what the map holds under these. -/
theorem get?_restrictToKeys (m : SortedMap α β) {keys : List α} (h : keys.Nodup) (k : α) :
    (m.restrictToKeys keys).get? k = if k ∈ keys then m.get? k else none := by
  rw [restrictToKeys, get?_ofList (distinctKeys_lookups m h), lineValue?_lookups m h]

end SortedMap

namespace Storage

/-- The identifiers of each query of a fetch: a store of maps is asked for all of them under one lock, a
database piece by piece. -/
def queries (s : Storage) (uids : List Uid) : List (List Uid) :=
  match s with
  | keyValue _ => [uids]
  | rows _ | closedRows _ => RowStore.chunks (RowStore.chunkSize - 1) uids

/-- One query of a fetch: the lines it finds are put to those found before. -/
def query (s : Storage) (index : IndexId) (kind : TableKind) (found : EncryptedTable)
    (uids : List Uid) : Except Failure EncryptedTable :=
  match s with
  | keyValue store => .ok (found.union (store.fetchInOrder index kind uids))
  | rows store => store.fetchChunk index kind found uids
  | closedRows _ => .error closed

/-- A fetch asks its queries one after the other and collects what they find. -/
theorem fetchInOrder_eq_queries (s : Storage) (index : IndexId) (kind : TableKind)
    (uids : List Uid) :
    s.fetchInOrder index kind uids = (s.queries uids).foldlM (s.query index kind) ∅ := by
  cases s with
  | keyValue store =>
    have hunion (t : EncryptedTable) : (∅ : EncryptedTable).union t = t := SortedMap.ofList_toList t
    change Except.ok _ = Except.ok _
    rw [hunion]
  | rows store => rfl
  | closedRows store =>
    cases uids with
    | nil =>
      rw [queries, RowStore.chunks]
      rfl
    | cons uid rest =>
      rw [queries, RowStore.chunks]
      rfl

theorem query_eq {s : Storage} (hopen : s.isOpen = true) (index : IndexId) (kind : TableKind)
    (found : EncryptedTable) {uids : List Uid} (hnodup : uids.Nodup) :
    s.query index kind found uids =
      .ok (found.union ((s.contents.table index kind).restrictToKeys uids)) := by
  cases s with
  | keyValue store => rfl
  | rows store =>
    rw [query, RowStore.fetchChunk, RowStore.selectAmong_eq, RowStore.readRows_rowOf]
    congr 1
    apply SortedMap.ext_get?
    intro uid
    have hlines := SortedMap.distinctKeys_lookups (store.table index kind) hnodup
    rw [RowStore.foundLines, SortedMap.get?_insertAll found hlines, SortedMap.get?_union,
      SortedMap.lineValue?_lookups _ hnodup, SortedMap.get?_restrictToKeys _ hnodup]
    rfl
  | closedRows store => cases hopen

/-- The queries of a fetch ask for all its identifiers, each of them once. -/
theorem flatten_queries (s : Storage) (uids : List Uid) : (s.queries uids).flatten = uids := by
  cases s with
  | keyValue store => exact List.append_nil uids
  | rows store => exact RowStore.flatten_chunks _ uids
  | closedRows store => exact RowStore.flatten_chunks _ uids

/-- What other clients do to the storage in one step: a call, or a batch that is dropped midway. -/
inductive Moves : Storage → Storage → Prop
  | call (s : Storage) (o : SortedMap.VisitOrder Uid) (call : StorageCall) :
    Moves s (s.perform o call).1
  | dropped (s : Storage) (index : IndexId) (lines : List (Uid × UpsertLine)) :
    Moves s (s.abandonUpsert index lines)

theorem isOpen_perform {s : Storage} (hopen : s.isOpen = true) (o : SortedMap.VisitOrder Uid)
    (call : StorageCall) : (s.perform o call).1.isOpen = true := by
  cases call with
  | upsertEntries index data =>
    rw [perform_upsertEntries index hopen]
    exact (s.isOpen_upserted index data).trans hopen
  | insertChains index data =>
    rw [perform_insertChains index hopen]
    exact (s.isOpen_inserted index data).trans hopen
  | fetch index kind uids => exact hopen
  | fetchAll index kind => exact hopen
  | size index => exact hopen
  | sizes indexes => exact hopen

theorem Moves.isOpen {s s' : Storage} (h : s.Moves s') (hopen : s.isOpen = true) :
    s'.isOpen = true := by
  cases h with
  | call o call => exact isOpen_perform hopen o call
  | dropped index lines => rwa [abandonUpsert_eq]

/-- A fetch that has some queries left and some lines found, in the midst of what other clients do: the
states of the storage from now until it answers, and its answer. -/
inductive FetchesAmid (index : IndexId) (kind : TableKind) :
    Storage → List (List Uid) → EncryptedTable → List Storage → Except Failure EncryptedTable → Prop
  | answers (s : Storage) (found : EncryptedTable) :
    FetchesAmid index kind s [] found [s] (.ok found)
  | fails {s : Storage} {found : EncryptedTable} {uids : List Uid} {rest : List (List Uid)}
    {e : Failure} (hquery : s.query index kind found uids = .error e) :
    FetchesAmid index kind s (uids :: rest) found [s] (.error e)
  | asks {s : Storage} {found found' : EncryptedTable} {uids : List Uid} {rest : List (List Uid)}
    {states : List Storage} {answer : Except Failure EncryptedTable}
    (hquery : s.query index kind found uids = .ok found')
    (hrest : FetchesAmid index kind s rest found' states answer) :
    FetchesAmid index kind s (uids :: rest) found states answer
  | waits {s s' : Storage} {found : EncryptedTable} {pieces : List (List Uid)}
    {states : List Storage} {answer : Except Failure EncryptedTable} (hmoves : s.Moves s')
    (hrest : FetchesAmid index kind s' pieces found states answer) :
    FetchesAmid index kind s pieces found (s :: states) answer

/-- Every identifier asked for was read in one of some states, those of one query in the same, and later
ones in no earlier state. What was found before is left as it was. -/
structure ReadAt (index : IndexId) (kind : TableKind) (pieces : List (List Uid))
    (before : EncryptedTable) (states : List Storage) (t : EncryptedTable) (position : Uid → Nat) :
    Prop where
  reads : ∀ uid ∈ pieces.flatten, ∃ s, states[position uid]? = some s ∧
    t.get? uid = (s.contents.table index kind).get? uid
  others : ∀ uid ∉ pieces.flatten, t.get? uid = before.get? uid
  together : ∀ uids ∈ pieces, ∀ u ∈ uids, ∀ v ∈ uids, position u = position v
  inTurn : pieces.flatten.Pairwise fun u v => position u ≤ position v

namespace FetchesAmid

variable {index : IndexId} {kind : TableKind} {s : Storage} {pieces : List (List Uid)}
  {found : EncryptedTable} {states : List Storage} {answer : Except Failure EncryptedTable}

theorem head_states (h : FetchesAmid index kind s pieces found states answer) :
    ∃ later, states = s :: later := by
  induction h with
  | answers s found => exact ⟨[], rfl⟩
  | fails hquery => exact ⟨[], rfl⟩
  | asks hquery hrest ih => exact ih
  | waits hmoves hrest ih => exact ⟨_, rfl⟩

/-- A fetch that nobody interferes with. -/
theorem of_foldlM {found' : EncryptedTable}
    (h : pieces.foldlM (s.query index kind) found = .ok found') :
    FetchesAmid index kind s pieces found [s] (.ok found') := by
  induction pieces generalizing found with
  | nil =>
    cases h
    exact .answers s _
  | cons uids rest ih =>
    rw [List.foldlM_cons] at h
    cases hquery : s.query index kind found uids with
    | error e =>
      rw [hquery] at h
      cases h
    | ok next =>
      rw [hquery] at h
      exact .asks hquery (ih h)

end FetchesAmid

namespace ReadAt

variable {index : IndexId} {kind : TableKind} {pieces : List (List Uid)} {before t : EncryptedTable}
  {states : List Storage} {position : Uid → Nat}

theorem nil (states : List Storage) : ReadAt index kind [] before states before fun _ => 0 where
  reads := fun _ huid => absurd huid List.not_mem_nil
  others := fun _ _ => rfl
  together := fun _ huids => absurd huids List.not_mem_nil
  inTurn := List.Pairwise.nil

/-- A state that comes before those that were read. -/
theorem later (h : ReadAt index kind pieces before states t position) (s : Storage) :
    ReadAt index kind pieces before (s :: states) t fun uid => position uid + 1 where
  reads := h.reads
  others := h.others
  together := fun uids huids u hu v hv => congrArg (· + 1) (h.together uids huids u hu v hv)
  inTurn := h.inTurn.imp Nat.succ_le_succ

/-- A query reads the first of the states, and the others follow. -/
theorem cons {s : Storage} {uids : List Uid}
    (hnodup : (uids ++ pieces.flatten).Nodup) (hnew : ∀ uid ∈ uids, before.get? uid = none)
    (h : ReadAt index kind pieces
      (before.union ((s.contents.table index kind).restrictToKeys uids)) (s :: states) t position) :
    ReadAt index kind (uids :: pieces) before (s :: states) t
      fun uid => if uid ∈ uids then 0 else position uid := by
  have hother : ∀ uid ∈ pieces.flatten, uid ∉ uids := fun uid huid hmem =>
    List.disjoint_of_nodup_append hnodup hmem huid
  -- The lines of the first query stay as they were found.
  have hafter : ∀ uid ∉ pieces.flatten, t.get? uid =
      if uid ∈ uids then ((s.contents.table index kind).get? uid).or (before.get? uid)
      else before.get? uid := by
    intro uid huid
    rw [h.others uid huid, SortedMap.get?_union,
      SortedMap.get?_restrictToKeys _ hnodup.of_append_left]
    split <;> rfl
  refine ⟨fun uid huid => ?_, fun uid huid => ?_, fun piece hpiece u hu v hv => ?_, ?_⟩
  · by_cases hfirst : uid ∈ uids
    · have hrest : uid ∉ pieces.flatten := fun hmem => hother uid hmem hfirst
      refine ⟨s, by rw [if_pos hfirst]; rfl, ?_⟩
      rw [hafter uid hrest, if_pos hfirst, hnew uid hfirst, Option.or_none]
    · rw [if_neg hfirst]
      rw [List.flatten_cons, List.mem_append] at huid
      exact h.reads uid (huid.resolve_left hfirst)
  · rw [List.flatten_cons, List.mem_append, not_or] at huid
    rw [hafter uid huid.2, if_neg huid.1]
  · rcases List.mem_cons.1 hpiece with rfl | hrest
    · rw [if_pos hu, if_pos hv]
    · rw [if_neg (hother u (List.mem_flatten_of_mem hrest hu)),
        if_neg (hother v (List.mem_flatten_of_mem hrest hv))]
      exact h.together piece hrest u hu v hv
  · rw [List.flatten_cons, List.pairwise_append]
    refine ⟨?_, ?_, fun u hu v _ => ?_⟩
    · refine List.pairwise_of_forall_mem_list fun u hu v _ => ?_
      rw [if_pos hu]
      exact Nat.zero_le _
    · refine h.inTurn.imp_of_mem fun hu hv hle => ?_
      rwa [if_neg (hother _ hu), if_neg (hother _ hv)]
    · rw [if_pos hu]
      exact Nat.zero_le _

end ReadAt

/-- A fetch on an open store answers, and each of its queries reads one state. -/
theorem FetchesAmid.readAt {index : IndexId} {kind : TableKind} {s : Storage}
    {pieces : List (List Uid)} {found : EncryptedTable} {states : List Storage}
    {answer : Except Failure EncryptedTable}
    (h : FetchesAmid index kind s pieces found states answer) (hopen : s.isOpen = true)
    (hnodup : pieces.flatten.Nodup) (hnew : ∀ uid ∈ pieces.flatten, found.get? uid = none) :
    ∃ t position, answer = .ok t ∧ ReadAt index kind pieces found states t position := by
  induction h with
  | answers s found => exact ⟨found, _, rfl, .nil [s]⟩
  | @fails s found uids rest e hquery =>
    rw [List.flatten_cons] at hnodup
    rw [query_eq hopen index kind found hnodup.of_append_left] at hquery
    cases hquery
  | @asks s found found' uids rest states answer hquery hrest ih =>
    rw [List.flatten_cons] at hnodup hnew
    rw [query_eq hopen index kind found hnodup.of_append_left] at hquery
    cases hquery
    -- the pieces have no identifier in common, so no later one was found already
    have hrestNew : ∀ uid ∈ rest.flatten,
        (found.union ((s.contents.table index kind).restrictToKeys uids)).get? uid = none := by
      intro uid huid
      have hother : uid ∉ uids := fun hmem => List.disjoint_of_nodup_append hnodup hmem huid
      rw [SortedMap.get?_union, SortedMap.get?_restrictToKeys _ hnodup.of_append_left, if_neg hother,
        hnew uid (List.mem_append_right _ huid)]
      rfl
    obtain ⟨t, position, hanswer, hread⟩ := ih hopen hnodup.of_append_right hrestNew
    obtain ⟨later, rfl⟩ := hrest.head_states
    exact ⟨t, _, hanswer, hread.cons hnodup fun uid huid => hnew uid (List.mem_append_left _ huid)⟩
  | waits hmoves hrest ih =>
    obtain ⟨t, position, hanswer, hread⟩ := ih (hmoves.isOpen hopen) hnodup hnew
    exact ⟨t, _, hanswer, hread.later _⟩

/-- An answer that was read at one state holds what that state holds under the identifiers asked for. -/
theorem ReadAt.eq_restrict {index : IndexId} {kind : TableKind} {uids : UidSet} {order : List Uid}
    (hp : order.Perm uids.keys) {states : List Storage} (hne : states ≠ []) {t : EncryptedTable}
    {pieces : List (List Uid)} (hpieces : pieces.flatten = order) {position : Uid → Nat}
    (h : ReadAt index kind pieces ∅ states t position)
    (hsame : ∀ u ∈ order, ∀ v ∈ order, position u = position v) :
    ∃ s ∈ states, t = (s.contents.table index kind).restrict uids := by
  have hnodup : order.Nodup := hp.nodup_iff.2 (SortedMap.nodup_keys uids)
  -- One state holds all that was found, if anything was asked for at all.
  have hone : ∃ s ∈ states, ∀ uid ∈ order,
      t.get? uid = (s.contents.table index kind).get? uid := by
    cases order with
    | nil =>
      obtain ⟨s, hs⟩ := List.exists_mem_of_ne_nil states hne
      exact ⟨s, hs, fun _ huid => absurd huid List.not_mem_nil⟩
    | cons u rest =>
      obtain ⟨s, hs, -⟩ := h.reads u (hpieces ▸ List.mem_cons_self)
      refine ⟨s, List.mem_of_getElem? hs, fun v hv => ?_⟩
      obtain ⟨s', hs', hfound⟩ := h.reads v (hpieces ▸ hv)
      rw [hsame v hv u List.mem_cons_self, hs] at hs'
      cases hs'
      exact hfound
  obtain ⟨s, hs, hfound⟩ := hone
  refine ⟨s, hs, ?_⟩
  rw [← SortedMap.restrictToKeys_perm _ hp]
  apply SortedMap.ext_get?
  intro uid
  rw [SortedMap.get?_restrictToKeys _ hnodup]
  split
  · rename_i huid
    exact hfound uid huid
  · rename_i huid
    exact h.others uid (hpieces ▸ huid)

/-- One query is enough for a store of maps, and for as many identifiers as a query can hold. -/
theorem queries_of_one {s : Storage} {order : List Uid}
    (hone : (∃ store, s = keyValue store) ∨ order.length ≤ RowStore.chunkSize) :
    ∀ piece ∈ s.queries order, piece = order := by
  -- a short list of identifiers is one chunk, or none if it is empty
  have hchunks : order.length ≤ RowStore.chunkSize →
      ∀ piece ∈ RowStore.chunks (RowStore.chunkSize - 1) order, piece = order := by
    intro hlen piece hpiece
    have hall : order.length ≤ RowStore.chunkSize - 1 + 1 := hlen
    rw [RowStore.chunks, List.drop_eq_nil_of_le hall, List.take_of_length_le hall, RowStore.chunks]
      at hpiece
    split at hpiece
    · cases hpiece
    · exact List.mem_singleton.1 hpiece
  intro piece hpiece
  cases s with
  | keyValue store => exact List.mem_singleton.1 hpiece
  | rows store =>
    rcases hone with ⟨_, heq⟩ | hlen
    · cases heq
    · exact hchunks hlen piece hpiece
  | closedRows store =>
    rcases hone with ⟨_, heq⟩ | hlen
    · cases heq
    · exact hchunks hlen piece hpiece

/-- A fetch of one query answers what some state between its beginning and its end holds. -/
theorem FetchesAmid.snapshot {index : IndexId} {kind : TableKind} {s : Storage} {uids : UidSet}
    {order : List Uid} {states : List Storage} {answer : Except Failure EncryptedTable}
    (h : FetchesAmid index kind s (s.queries order) ∅ states answer) (hopen : s.isOpen = true)
    (hp : order.Perm uids.keys)
    (hone : (∃ store, s = keyValue store) ∨ order.length ≤ RowStore.chunkSize) :
    ∃ s' ∈ states, answer = .ok ((s'.contents.table index kind).restrict uids) := by
  have hnodup : order.Nodup := hp.nodup_iff.2 (SortedMap.nodup_keys uids)
  have hpieces : (s.queries order).flatten = order := s.flatten_queries order
  obtain ⟨t, position, rfl, hread⟩ := h.readAt hopen (hpieces.symm ▸ hnodup) fun _ _ => rfl
  obtain ⟨later, hstates⟩ := h.head_states
  have hsame : ∀ u ∈ order, ∀ v ∈ order, position u = position v := by
    intro u hu v hv
    rw [← hpieces] at hu
    obtain ⟨piece, hpiece, hmem⟩ := List.mem_flatten.1 hu
    have hwhole := queries_of_one hone piece hpiece
    exact hread.together piece hpiece u hmem v (hwhole.symm ▸ hv)
  have hne : states ≠ [] := by
    rw [hstates]
    exact List.cons_ne_nil _ _
  obtain ⟨s', hs', ht⟩ := hread.eq_restrict hp hne hpieces hsame
  exact ⟨s', hs', congrArg Except.ok ht⟩

theorem table_inserted_empty (index : IndexId) (c : EncryptedTable) :
    ((empty .rows).inserted index c).contents.table index .chains = c := by
  rw [contents_inserted, Contents.table_insertChains, contents_empty]
  exact SortedMap.ofList_toList c

/-- A fetch from an empty database, where chains are written after the first query: it finds those that
the later queries ask for. -/
theorem fetches_amid_insertion {order : List Uid} (hnodup : order.Nodup) (hne : order ≠ [])
    (index : IndexId) (c : EncryptedTable) :
    FetchesAmid index .chains (empty .rows) ((empty .rows).queries order) ∅
      [empty .rows, (empty .rows).inserted index c]
      (.ok (c.restrictToKeys (order.drop RowStore.chunkSize))) := by
  have hmoves : (empty .rows).Moves ((empty .rows).inserted index c) := by
    have hcall := Moves.call (empty .rows) .ascending (.insertChains index c)
    rwa [perform_insertChains index rfl] at hcall
  obtain ⟨store, hstore⟩ : ∃ store, (empty .rows).inserted index c = rows store := ⟨_, rfl⟩
  have htable : (rows store).contents.table index .chains = c := by
    rw [← hstore, table_inserted_empty]
  rw [hstore] at hmoves ⊢
  have hqueries : (empty .rows).queries order = order.take RowStore.chunkSize ::
      (rows store).queries (order.drop RowStore.chunkSize) := by
    change RowStore.chunks (RowStore.chunkSize - 1) order = _
    rw [RowStore.chunks, if_neg (by simpa using hne)]
    rfl
  -- nothing is stored yet when the first query is asked
  have hfirst : (empty .rows).query index .chains ∅ (order.take RowStore.chunkSize) = .ok ∅ := by
    have htake := hnodup.sublist (List.take_sublist RowStore.chunkSize order)
    rw [query_eq rfl index .chains ∅ htake, contents_empty]
    congr 1
    apply SortedMap.ext_get?
    intro uid
    rw [SortedMap.get?_union, SortedMap.get?_restrictToKeys _ htake]
    split <;> rfl
  have hlater : ((rows store).queries (order.drop RowStore.chunkSize)).foldlM
      ((rows store).query index .chains) ∅ =
        .ok (c.restrictToKeys (order.drop RowStore.chunkSize)) := by
    rw [← fetchInOrder_eq_queries, ← htable]
    exact store.fetchInOrder_eq index .chains _
  rw [hqueries]
  exact .asks hfirst (.waits hmoves (.of_foldlM hlater))

/-- Two chains of one batch that different queries ask for: the fetch shows one of them without the
other, which no state does. -/
theorem insertion_torn {order : List Uid} {uids : UidSet} (hp : order.Perm uids.keys) {u v : Uid}
    (hu : u ∈ order.take RowStore.chunkSize) (hv : v ∈ order.drop RowStore.chunkSize)
    (index : IndexId) :
    ∀ s ∈ [empty .rows, (empty .rows).inserted index (.ofList [(u, [1]), (v, [1])])],
      (SortedMap.ofList [(u, [1]), (v, [1])]).restrictToKeys (order.drop RowStore.chunkSize) ≠
        (s.contents.table index .chains).restrict uids := by
  have hnodup : order.Nodup := hp.nodup_iff.2 (SortedMap.nodup_keys uids)
  have hdrop := hnodup.sublist (List.drop_sublist RowStore.chunkSize order)
  have hlate : u ∉ order.drop RowStore.chunkSize := fun hmem =>
    List.disjoint_take_drop hnodup (Nat.le_refl _) hu hmem
  have huv : u ≠ v := fun heq => hlate (heq ▸ hv)
  have hlines : SortedMap.DistinctKeys [(u, ([1] : Bytes)), (v, [1])] := by
    simpa [SortedMap.DistinctKeys] using huv
  generalize hc : (SortedMap.ofList [(u, [1]), (v, [1])] : EncryptedTable) = c
  have hget (uid : Uid) (huid : uid = u ∨ uid = v) : c.get? uid = some [1] := by
    rw [← hc, SortedMap.get?_ofList hlines, SortedMap.lineValue?_eq_some_iff_mem hlines]
    rcases huid with rfl | rfl <;> simp
  intro s hs heq
  rw [← SortedMap.restrictToKeys_perm _ hp] at heq
  rcases List.mem_pair.1 hs with rfl | rfl
  · -- Before the batch there is no second chain.
    have hfound := congrArg (SortedMap.get? · v) heq
    simp only [SortedMap.get?_restrictToKeys _ hdrop, SortedMap.get?_restrictToKeys _ hnodup,
      if_pos hv, hget v (Or.inr rfl), contents_empty] at hfound
    split at hfound <;> cases hfound
  · -- Behind it there is a first one.
    have hfound := congrArg (SortedMap.get? · u) heq
    simp only [SortedMap.get?_restrictToKeys _ hdrop, SortedMap.get?_restrictToKeys _ hnodup,
      if_neg hlate, if_pos (List.mem_of_mem_take hu), table_inserted_empty, hget u (Or.inl rfl)]
      at hfound
    cases hfound

/-- The kind of a store. -/
def backend : Storage → StorageKind
  | keyValue _ => .keyValue
  | rows _ | closedRows _ => .rows

/-- Whatever other clients do meanwhile, a fetch of some identifiers from an open store of a kind answers
what one state holds under them, a state that the storage was in while the fetch ran. -/
def SnapshotFetches (kept : StorageKind) (uids : UidSet) : Prop :=
  ∀ (index : IndexId) (kind : TableKind) (s : Storage) (order : List Uid) (states : List Storage)
    (answer : Except Failure EncryptedTable), s.isOpen = true → s.backend = kept →
    order.Perm uids.keys → FetchesAmid index kind s (s.queries order) ∅ states answer →
    ∃ s' ∈ states, answer = .ok ((s'.contents.table index kind).restrict uids)

/-- Where one query is enough, no batch comes in between. -/
theorem snapshotFetches_of_one {kept : StorageKind} {uids : UidSet}
    (hone : kept = .keyValue ∨ uids.keys.length ≤ RowStore.chunkSize) :
    SnapshotFetches kept uids := by
  intro index kind s order states answer hopen hkept hp h
  refine h.snapshot hopen hp ?_
  rcases hone with rfl | hlen
  · cases s with
    | keyValue store => exact Or.inl ⟨store, rfl⟩
    | rows store => cases hkept
    | closedRows store => cases hkept
  · exact Or.inr (hp.length_eq ▸ hlen)

/-- Where a database is asked twice, an insertion between the queries tears the answer. -/
theorem not_snapshotFetches_rows {uids : UidSet} (hmany : RowStore.chunkSize < uids.keys.length) :
    ¬SnapshotFetches .rows uids := by
  intro hall
  have hnodup := SortedMap.nodup_keys uids
  obtain ⟨u, hu⟩ : ∃ u, u ∈ uids.keys.take RowStore.chunkSize := by
    apply List.exists_mem_of_length_pos
    rw [List.length_take]
    exact Nat.lt_min.2 ⟨by decide, by omega⟩
  obtain ⟨v, hv⟩ : ∃ v, v ∈ uids.keys.drop RowStore.chunkSize := by
    apply List.exists_mem_of_length_pos
    rw [List.length_drop]
    omega
  have hne : uids.keys ≠ [] := List.ne_nil_of_mem (List.mem_of_mem_take hu)
  obtain ⟨s, hs, heq⟩ := hall 1 .chains _ _ _ _ rfl rfl (List.Perm.refl _)
    (fetches_amid_insertion hnodup hne 1 (.ofList [(u, [1]), (v, [1])]))
  exact insertion_torn (List.Perm.refl _) hu hv 1 s hs (Except.ok.inj heq)

/-- In the midst of other clients' batches, every query of a fetch reads one committed state, and later
ones no earlier state. The whole fetch reads one state, whatever happens, exactly for a store of maps and
for as many identifiers as one query can hold. -/
theorem fetch_snapshot_iff (kept : StorageKind) (uids : UidSet) :
    (∀ (index : IndexId) (kind : TableKind) (s : Storage) (order : List Uid) (states : List Storage)
      (answer : Except Failure EncryptedTable), s.isOpen = true → order.Perm uids.keys →
      FetchesAmid index kind s (s.queries order) ∅ states answer →
      ∃ t position, answer = .ok t ∧ ReadAt index kind (s.queries order) ∅ states t position) ∧
    (SnapshotFetches kept uids ↔ kept = .keyValue ∨ uids.keys.length ≤ RowStore.chunkSize) := by
  constructor
  · intro index kind s order states answer hopen hp h
    have hnodup : order.Nodup := hp.nodup_iff.2 (SortedMap.nodup_keys uids)
    exact h.readAt hopen ((s.flatten_queries order).symm ▸ hnodup) fun _ _ => rfl
  · refine ⟨fun hall => ?_, snapshotFetches_of_one⟩
    cases kept with
    | keyValue => exact Or.inl rfl
    | rows =>
      right
      by_contra hmany
      exact not_snapshotFetches_rows (Nat.lt_of_not_le hmany) hall

/-- The identifier that begins with a number. -/
def numbered (n : Nat) : Uid :=
  ⟨Bytes.ofBigEndian 8 n ++ List.replicate 24 0, by
    rw [List.length_append, Bytes.length_ofBigEndian, List.length_replicate]⟩

theorem numbered_inj {m n : Nat} (hm : m < 501) (hn : n < 501) (h : numbered m = numbered n) :
    m = n := by
  have hfront : Bytes.ofBigEndian 8 m = Bytes.ofBigEndian 8 n :=
    List.append_cancel_right (congrArg Uid.bytes h)
  have hvalue := congrArg Bytes.bigEndian hfront
  have hbound : (501 : Nat) < Nat.pow 256 8 := by decide
  rwa [Bytes.bigEndian_ofBigEndian, Bytes.bigEndian_ofBigEndian, Nat.mod_eq_of_lt (by omega),
    Nat.mod_eq_of_lt (by omega)] at hvalue

/-- One identifier more than a query can hold. -/
def tooManyUids : List Uid := (List.range 501).map numbered

theorem tooManyUids_perm : tooManyUids.Perm (UidSet.ofUids tooManyUids).keys := by
  have hnodup : tooManyUids.Nodup := by
    refine List.Nodup.map_on (fun m hm n hn heq => ?_) List.nodup_range
    exact numbered_inj (List.mem_range.1 hm) (List.mem_range.1 hn) heq
  have hids : (tooManyUids.map fun uid => (uid, ())).map Prod.fst = tooManyUids := by
    rw [List.map_map]
    exact List.map_id tooManyUids
  have hlines : SortedMap.DistinctKeys (tooManyUids.map fun uid => (uid, ())) := by
    rwa [SortedMap.DistinctKeys, hids]
  have hperm := (SortedMap.toList_ofList_perm hlines).map Prod.fst
  rw [hids] at hperm
  exact hperm.symm

/-- A batch of the first and the last of them. -/
def outerChains : EncryptedTable := .ofList [(numbered 0, [1]), (numbered 500, [1])]

/-- A batch that commits behind the first of the two queries shows in the second, and no state holds what
the fetch answers. -/
theorem fetch_of_tooManyUids_torn : ∃ t,
    FetchesAmid 1 .chains (empty .rows) ((empty .rows).queries tooManyUids) ∅
      [empty .rows, (empty .rows).inserted 1 outerChains] (.ok t) ∧
    ∀ s ∈ [empty .rows, (empty .rows).inserted 1 outerChains],
      t ≠ (s.contents.table 1 .chains).restrict (UidSet.ofUids tooManyUids) := by
  have hnodup := tooManyUids_perm.nodup_iff.2 (SortedMap.nodup_keys _)
  have hsplit : tooManyUids = (List.range 500).map numbered ++ [numbered 500] := by
    rw [tooManyUids, List.range_succ, List.map_append]
    rfl
  have hlength : ((List.range 500).map numbered).length = RowStore.chunkSize := by
    rw [List.length_map, List.length_range]
    rfl
  have hfirst : numbered 0 ∈ tooManyUids.take RowStore.chunkSize := by
    rw [hsplit, ← hlength, List.take_left]
    exact List.mem_map_of_mem (List.mem_range.2 (by decide))
  have hlast : numbered 500 ∈ tooManyUids.drop RowStore.chunkSize := by
    rw [hsplit, ← hlength, List.drop_left]
    exact List.mem_singleton_self _
  refine ⟨_, fetches_amid_insertion hnodup (by rw [hsplit]; simp) 1 outerChains, ?_⟩
  exact insertion_torn tooManyUids_perm hfirst hlast 1

end Storage
end IndexVault
