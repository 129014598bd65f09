import WotCrawler.Crawl.Driver
import WotCrawler.Crawl.Outcome

/-! A scripted graph: the follow lists that a crawl is served, and what they reach. -/

namespace WotCrawler.Crawl

open Store Ingest Relay

/-- What the gate asks of a follow list, besides its author. -/
structure GateParams.Admits (gate : GateParams) (verifier : Verifier) (event : Event) : Prop where
  verified : verifier.verify event = true
  kind : event.kind = gate.wantKind
  dated : event.createdAt ≤ gate.now.saturatingAdd gate.futureClampSecs
  small : (followeeSet event).card ≤ gate.followCap

/-- At most one list of every author, and finitely many. -/
structure ScriptedGraph where
  list : PublicKey → Option Event
  own : ∀ author event, list author = some event → event.pubkey = author
  finite : {author | (list author).isSome = true}.Finite

namespace ScriptedGraph

/-- Whom an author's list names, besides the author. -/
def followees (graph : ScriptedGraph) (author : PublicKey) : Finset PublicKey :=
  match graph.list author with
  | some event => followeeSet event
  | none => ∅

/-- The authors that follow lists reach from the anchor. -/
def Reaches (graph : ScriptedGraph) (anchor : PublicKey) : PublicKey → Prop :=
  Relation.ReflTransGen (fun author followee => followee ∈ graph.followees author) anchor

variable {graph : ScriptedGraph} {anchor author : PublicKey}

theorem followees_of_list (listed : graph.list author = some event) :
    graph.followees author = followeeSet event := by
  rw [followees, listed]

theorem followees_of_none (listless : graph.list author = none) : graph.followees author = ∅ := by
  rw [followees, listless]

/-- The lists of a graph that are admitted. -/
def admitted (graph : ScriptedGraph) (admits : Event → Bool) : ScriptedGraph where
  list := fun author => (graph.list author).filter admits
  own := fun author event listed => graph.own author event (Option.filter_eq_some_iff.mp listed).1
  finite := by
    apply graph.finite.subset
    intro author listed
    obtain ⟨event, kept⟩ := Option.isSome_iff_exists.mp listed
    exact Option.isSome_iff_exists.mpr ⟨event, (Option.filter_eq_some_iff.mp kept).1⟩

theorem admitted_all (graph : ScriptedGraph) : graph.admitted (fun _ => true) = graph := by
  have same : (fun author => (graph.list author).filter fun _ => true) = graph.list := by
    funext author
    cases graph.list author <;> rfl
  cases graph
  simpa only [admitted, mk.injEq] using same

/-- Exactly the lists of a batch's authors. -/
def Scripts (graph : ScriptedGraph) (batch : List ClaimedAuthor) (events : List Event) : Prop :=
  ∀ event, event ∈ events ↔
    ∃ claimed ∈ batch, ∃ author, PublicKey.fromSlice claimed.pubkey = some author ∧ graph.list author = some event

/-- The scripted fetch of a batch. -/
def fetchFn (graph : ScriptedGraph) (batch : List ClaimedAuthor) : List Event :=
  batch.filterMap (fun claimed => (PublicKey.fromSlice claimed.pubkey).bind graph.list)

theorem fetchFn_scripts (graph : ScriptedGraph) (batch : List ClaimedAuthor) :
    graph.Scripts batch (graph.fetchFn batch) := by
  intro event
  simp only [fetchFn, List.mem_filterMap, Option.bind_eq_some_iff]

/-- A call whose fetch returns exactly the lists of its batch's authors, in any order, and whose gate
admits the given ones. -/
structure Serves (graph : ScriptedGraph) (verifier : Verifier) (admits : Event → Bool) (settings : Settings) :
    Prop where
  verified : settings.gate.verify = verifier.verify
  admits : ∀ author event, graph.list author = some event →
    (admits event = true ↔ settings.gate.Admits verifier event)
  completes : ∀ batch, ∃ fetched, settings.fetchUnion batch fetched
  fetches : ∀ batch fetched, settings.fetchUnion batch fetched →
    ∃ events, fetched = .ok events ∧ graph.Scripts batch events

variable {verifier : Verifier} {admits : Event → Bool} {settings : Settings} {batch : List ClaimedAuthor}
  {events : List Event} {claimed : ClaimedAuthor}

/-- The list that the gate emits for an author is the admitted one. -/
theorem Serves.listFor_some (serves : graph.Serves verifier admits settings)
    (fetched : graph.Scripts batch events)
    (listed : settings.gate.listFor batch events claimed = some vfl) :
    ∃ author event followees, author.bytes = claimed.pubkey ∧ (graph.admitted admits).list author = some event ∧
      followeePubkeys event settings.gate.followCap = some followees ∧ vfl = .fromEvent event followees := by
  obtain ⟨winner, followees, wins, key, extracted, made⟩ := listFor_eq_some verifier serves.verified listed
  obtain ⟨_, _, best, small⟩ := wins
  obtain ⟨received, verified, _, kind, dated⟩ := best.member
  obtain ⟨_, _, author, _, same⟩ := (fetched winner).mp received
  obtain rfl := graph.own author winner same
  have admitted := (serves.admits winner.pubkey winner same).mpr ⟨verified, kind, dated, small⟩
  exact ⟨winner.pubkey, winner, followees, key, Option.filter_eq_some_iff.mpr ⟨same, admitted⟩, extracted, made⟩

/-- An author without an emitted list has no admitted one. -/
theorem Serves.listFor_none (serves : graph.Serves verifier admits settings) (member : claimed ∈ batch)
    (fetched : graph.Scripts batch events) (key : author.bytes = claimed.pubkey)
    (unlisted : settings.gate.listFor batch events claimed = none) :
    (graph.admitted admits).list author = none := by
  have parsed : PublicKey.fromSlice claimed.pubkey = some author := PublicKey.fromSlice_eq_some_iff.mpr key
  cases present : (graph.admitted admits).list author with
  | none => rfl
  | some event =>
    exfalso
    obtain ⟨listed, admitted⟩ := Option.filter_eq_some_iff.mp present
    obtain ⟨verified, kind, dated, small⟩ := (serves.admits author event listed).mp admitted
    have wins : Wins verifier settings.gate events claimed event := by
      refine ⟨author, parsed, ⟨?_, ?_⟩, small⟩
      · exact ⟨(fetched event).mpr ⟨claimed, member, author, parsed, listed⟩, verified,
          graph.own author event listed, kind, dated⟩
      · intro other admissible
        obtain ⟨_, _, owner, _, same⟩ := (fetched other).mp admissible.1
        obtain rfl : owner = author := (graph.own owner other same).symm.trans admissible.2.2.1
        exact .inl (congrArg Event.id (Option.some.inj (same.symm.trans listed)))
    obtain ⟨vfl, emitted⟩ := listFor_isSome verifier serves.verified member wins
    rw [unlisted] at emitted
    cases emitted

end ScriptedGraph

end WotCrawler.Crawl
