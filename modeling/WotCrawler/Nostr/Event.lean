import Mathlib

/-! The nostr types the crawler handles: keys, ids, timestamps, tags, events and filters. -/

namespace WotCrawler

abbrev Byte := Fin 256

instance Byte.neZero : NeZero 256 := ⟨by decide⟩

abbrev Bytes := List Byte

/-- A 32-byte public key. -/
structure PublicKey where
  bytes : Bytes
  width : bytes.length = 32
deriving DecidableEq

/-- `PublicKey::from_slice` accepts exactly 32 bytes. -/
def PublicKey.fromSlice (slice : Bytes) : Option PublicKey :=
  if width : slice.length = 32 then some ⟨slice, width⟩ else none

theorem PublicKey.bytes_injective : Function.Injective PublicKey.bytes := by
  rintro ⟨left, _⟩ ⟨right, _⟩ same
  simpa using same

@[simp] theorem PublicKey.fromSlice_bytes (key : PublicKey) : fromSlice key.bytes = some key := by
  simp [fromSlice, key.width]

theorem PublicKey.fromSlice_eq_some_iff : fromSlice slice = some key ↔ key.bytes = slice := by
  unfold fromSlice
  constructor
  · intro parsed
    split at parsed
    · exact Option.some.inj parsed ▸ rfl
    · cases parsed
  · rintro rfl
    simp [key.width]

/-- A 32-byte event id, ordered by its big-endian bytes. -/
structure EventId where
  bytes : Bytes
  width : bytes.length = 32
deriving DecidableEq

theorem EventId.bytes_injective : Function.Injective EventId.bytes := by
  rintro ⟨left, _⟩ ⟨right, _⟩ same
  simpa using same

instance : LinearOrder EventId := LinearOrder.lift' EventId.bytes EventId.bytes_injective

/-- Seconds since the epoch, a `u64`. -/
abbrev Timestamp := Fin (2 ^ 64)

instance Timestamp.neZero : NeZero (2 ^ 64) := ⟨by decide⟩

/-- `u64::saturating_add`. -/
def Timestamp.saturatingAdd (left right : Timestamp) : Timestamp :=
  if fits : left.val + right.val < 2 ^ 64 then ⟨left.val + right.val, fits⟩ else Fin.last _

/-- An event kind, a `u16`. -/
abbrev Kind := Fin (2 ^ 16)

def Kind.contactList : Kind := 3

def Kind.relayList : Kind := 10002

/-- A relay url, by the string that the crate gives for it. -/
structure RelayUrl where
  asStr : String
deriving DecidableEq

/-- All slashes at the end are trimmed. -/
def RelayUrl.asStrWithoutTrailingSlash (url : RelayUrl) : String :=
  .ofList (url.asStr.toList.rdropWhile (· = '/'))

/-- The marker of an `r` tag. -/
inductive RelayMetadata where
  | read
  | write
deriving DecidableEq

/-- A tag: a standard `p` tag, a standard `r` tag, or anything the parsers skip. -/
inductive Tag where
  | publicKey (key : PublicKey)
  | relayMetadata (url : RelayUrl) (metadata : Option RelayMetadata)
  | other (fields : List String)
deriving DecidableEq

structure Event where
  id : EventId
  pubkey : PublicKey
  createdAt : Timestamp
  kind : Kind
  tags : List Tag
  content : String
  sig : Bytes
deriving DecidableEq

/-- `Tags::public_keys`: the keys of the well-formed `p` tags, in order. -/
def publicKeys (tags : List Tag) : List PublicKey :=
  tags.filterMap (fun
    | .publicKey key => some key
    | _ => none)

/-- A `Filter` as the crawler builds it: these four constraints and no others. -/
structure Filter where
  authors : List PublicKey
  kind : Kind
  untilTs : Timestamp
  limit : Nat

/-- A filter's authors and kind select an event. -/
def Filter.selects (filter : Filter) (event : Event) : Prop :=
  event.pubkey ∈ filter.authors ∧ event.kind = filter.kind

instance (filter : Filter) (event : Event) : Decidable (filter.selects event) :=
  inferInstanceAs (Decidable (_ ∧ _))

/-- `Event::verify` as far as the crawler relies on it: the id commits to the fields the
crawler reads, so two events that verify under one id agree on them. -/
structure Verifier where
  verify : Event → Bool
  pubkey_eq : verify left → verify right → left.id = right.id → left.pubkey = right.pubkey
  kind_eq : verify left → verify right → left.id = right.id → left.kind = right.kind
  createdAt_eq : verify left → verify right → left.id = right.id →
    left.createdAt = right.createdAt
  tags_eq : verify left → verify right → left.id = right.id → left.tags = right.tags

/-- A UTC instant in microseconds since the epoch, the precision of `TIMESTAMPTZ`. -/
abbrev DateTime := Int

def DateTime.ofSeconds (seconds : Int) : DateTime := seconds * 1000000

/-- The seconds `chrono::DateTime<Utc>` can represent. -/
def DateTime.secondsInRange (seconds : Int) : Prop :=
  -8334601228800 ≤ seconds ∧ seconds ≤ 8210266876799

instance (seconds : Int) : Decidable (DateTime.secondsInRange seconds) :=
  inferInstanceAs (Decidable (_ ∧ _))

/-- `u64 as i64`. -/
def Timestamp.asI64 (ts : Timestamp) : Int :=
  if ts.val < 2 ^ 63 then ts.val else ts.val - 2 ^ 64

/-- A second outside chrono's range becomes the epoch. -/
def timestampToDatetime (ts : Timestamp) : DateTime :=
  if DateTime.secondsInRange ts.asI64 then DateTime.ofSeconds ts.asI64 else DateTime.ofSeconds 0

/-- Below chrono's last second the conversion loses nothing. -/
theorem timestampToDatetime_exact (ts : Timestamp) (inRange : ts.val ≤ 8210266876799) :
    timestampToDatetime ts = DateTime.ofSeconds ts.val := by
  have same : ts.asI64 = ts.val := if_pos (by omega)
  rw [timestampToDatetime, same, if_pos]
  unfold DateTime.secondsInRange
  omega

/-- Past chrono's last second an `i64` value becomes the epoch. -/
theorem timestampToDatetime_late (ts : Timestamp) (late : 8210266876799 < ts.val)
    (positive : ts.val < 2 ^ 63) : timestampToDatetime ts = DateTime.ofSeconds 0 := by
  have same : ts.asI64 = ts.val := if_pos positive
  rw [timestampToDatetime, same, if_neg]
  unfold DateTime.secondsInRange
  omega

/-- NIP-01 precedence between two versions of a replaceable event: the newer one, and the lower
id within one second. -/
def Event.supersedes (newer older : Event) : Prop :=
  older.createdAt < newer.createdAt ∨
    (older.createdAt = newer.createdAt ∧ newer.id < older.id)

/-- The member of a set of events that supersedes every member with another id. -/
structure Nip01Winner (events : Event → Prop) (winner : Event) : Prop where
  member : events winner
  wins : ∀ event, events event → event.id = winner.id ∨ winner.supersedes event

/-- Where ids determine the timestamp, all winners are copies of one event. -/
theorem Nip01Winner.id_eq (left : Nip01Winner events a) (right : Nip01Winner events b) :
    a.id = b.id := by
  rcases left.wins b right.member with same | leftWins
  · exact same.symm
  · rcases right.wins a left.member with same | rightWins
    · exact same
    · exfalso
      rcases leftWins with newer | ⟨tied, lower⟩
      · rcases rightWins with older | ⟨tied, _⟩
        · exact lt_asymm newer older
        · exact newer.ne tied.symm
      · rcases rightWins with older | ⟨_, higher⟩
        · exact older.ne tied.symm
        · exact lt_asymm lower higher

/-- An author and its contact lists without tags, for runs on fixed inputs. -/
def sampleAuthor : PublicKey := ⟨List.replicate 32 1, rfl⟩

def sampleEvent (id : Byte) (createdAt : Timestamp) (content : String) : Event where
  id := ⟨List.replicate 32 id, rfl⟩
  pubkey := sampleAuthor
  createdAt := createdAt
  kind := Kind.contactList
  tags := []
  content := content
  sig := []

end WotCrawler
