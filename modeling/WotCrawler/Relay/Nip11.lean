import WotCrawler.Relay.Fetch

/-! What a relay advertises about itself. Its document is downloaded without holding more than the
bound, and yields usable limits however hostile it is. -/

namespace WotCrawler.Relay

/-- The `limitation` block of a relay's document. -/
structure Limitation where
  maxLimit : Option Int32
  maxSubscriptions : Option Int32
  maxFilters : Option Int32

/-- A parsed document, as far as the crawler reads it. -/
structure RelayInformationDocument where
  limitation : Option Limitation

def maxNip11Bytes : Nat := 64 * 1024

def defaultMaxLimit : Nat := 500

def defaultMaxSubscriptions : Nat := 20

def defaultMaxFilters : Nat := 10

def maxAdvertisedLimit : Nat := 5000

structure RelayLimits where
  maxLimit : Nat
  maxSubscriptions : Nat
  maxFilters : Nat
deriving DecidableEq

def RelayLimits.defaults : RelayLimits where
  maxLimit := defaultMaxLimit
  maxSubscriptions := defaultMaxSubscriptions
  maxFilters := defaultMaxFilters

/-- An advertised number, unless it is missing or not positive. -/
def clampLimit (advertised : Option Int32) (default : Nat) : Nat :=
  match advertised with
  | some value => if value.toInt > 0 then value.toInt.toNat else default
  | none => default

def clampMaxLimit (advertised : Option Int32) : Nat :=
  min (clampLimit advertised defaultMaxLimit) maxAdvertisedLimit

def limitsFromDoc (doc : RelayInformationDocument) : RelayLimits :=
  match doc.limitation with
  | none => .defaults
  | some limitation => {
      maxLimit := clampMaxLimit limitation.maxLimit
      maxSubscriptions := clampLimit limitation.maxSubscriptions defaultMaxSubscriptions
      maxFilters := clampLimit limitation.maxFilters defaultMaxFilters }

/-- The JSON reader of the document, or the text of its error. -/
abbrev DocumentParser := String → Except String RelayInformationDocument

def limitsFromJson (fromJson : DocumentParser) (body : String) : Except RelayError RelayLimits :=
  match fromJson body with
  | .error error => .error (.nip11Fetch "<json>" ("invalid NIP-11 document: " ++ error))
  | .ok doc => .ok (limitsFromDoc doc)

section Utf8

/-- A character under way: its bits so far, the bytes to come, and the bounds of the next one. -/
structure Utf8Pending where
  bits : Nat
  left : Nat
  low : Nat
  high : Nat

def replacementCharacter : Char := Char.ofNat 0xFFFD

/-- The first byte of a character: it is complete, starts a longer one, or is none. -/
def utf8Start (byte : Nat) : List Char × Option Utf8Pending :=
  if byte < 0x80 then ([Char.ofNat byte], none)
  else if 0xC2 ≤ byte ∧ byte ≤ 0xDF then ([], some ⟨byte - 0xC0, 1, 0x80, 0xBF⟩)
  else if byte = 0xE0 then ([], some ⟨0, 2, 0xA0, 0xBF⟩)
  else if byte = 0xED then ([], some ⟨0xD, 2, 0x80, 0x9F⟩)
  else if 0xE1 ≤ byte ∧ byte ≤ 0xEF then ([], some ⟨byte - 0xE0, 2, 0x80, 0xBF⟩)
  else if byte = 0xF0 then ([], some ⟨0, 3, 0x90, 0xBF⟩)
  else if 0xF1 ≤ byte ∧ byte ≤ 0xF3 then ([], some ⟨byte - 0xF0, 3, 0x80, 0xBF⟩)
  else if byte = 0xF4 then ([], some ⟨4, 3, 0x80, 0x8F⟩)
  else ([replacementCharacter], none)

/-- Every byte sequence that starts a character and does not end it becomes one replacement. -/
def utf8Lossy : Option Utf8Pending → Bytes → List Char
  | none, [] => []
  | some _, [] => [replacementCharacter]
  | none, byte :: rest => (utf8Start byte).1 ++ utf8Lossy (utf8Start byte).2 rest
  | some pending, byte :: rest =>
    if pending.low ≤ byte.val ∧ byte.val ≤ pending.high then
      let bits := pending.bits * 64 + (byte.val - 0x80)
      if pending.left = 1 then Char.ofNat bits :: utf8Lossy none rest
      else utf8Lossy (some ⟨bits, pending.left - 1, 0x80, 0xBF⟩) rest
    else replacementCharacter :: (utf8Start byte).1 ++ utf8Lossy (utf8Start byte).2 rest

/-- `String::from_utf8_lossy`. -/
def fromUtf8Lossy (body : Bytes) : String := String.ofList (utf8Lossy none body)

example : utf8Lossy none [72, 0xC3, 0xA9, 0xF0, 0x90, 0x80, 87, 0xFF] =
    ['H', 'é', replacementCharacter, 'W', replacementCharacter] := by decide

end Utf8

def limitsFromBytes (fromJson : DocumentParser) (relayUrl : String) (body : Bytes) : Except RelayError RelayLimits :=
  if body.length > maxNip11Bytes then
    .error (.nip11Fetch relayUrl
      ("NIP-11 body of " ++ toString body.length ++ " bytes exceeds MAX_NIP11_BYTES (65536)"))
  else limitsFromJson fromJson (fromUtf8Lossy body)

/-- The http(s) origin of a ws(s) url. -/
def nip11HttpUrl (relayUrl : String) : String :=
  match relayUrl.toList with
  | 'w' :: 's' :: 's' :: ':' :: '/' :: '/' :: rest => "https://" ++ String.ofList rest
  | 'w' :: 's' :: ':' :: '/' :: '/' :: rest => "http://" ++ String.ofList rest
  | _ => relayUrl

/-- What the HTTP client makes of one wait for the body: a chunk, its end, or an error. -/
abbrev Chunk := Except String (Option Bytes)

/-- The error of a body that grows beyond the bound. -/
def bodyExceeds (relayUrl : String) : RelayError :=
  .nip11Fetch relayUrl "NIP-11 body exceeds MAX_NIP11_BYTES (65536)"

/-- The loop over the body, given what came so far: nothing yet where more is awaited. -/
def readBody (relayUrl : String) : Bytes → List Chunk → Option (Except RelayError Bytes)
  | _, [] => none
  | _, .error error :: _ => some (.error (.nip11Fetch relayUrl ("reading response body failed: " ++ error)))
  | body, .ok none :: _ => some (.ok body)
  | body, .ok (some bytes) :: rest =>
    if body.length + bytes.length > maxNip11Bytes then
      some (.error (bodyExceeds relayUrl))
    else readBody relayUrl (body ++ bytes) rest

/-- What the HTTP client makes of a GET: an error, or a response whose body has come this far. -/
abbrev HttpGet := (url accept : String) → Except String (List Chunk)

/-- The download and its document, once enough of the body has come. -/
def fetchLimits (fromJson : DocumentParser) (get : HttpGet) (relayUrl : String) : Option (Except RelayError RelayLimits) :=
  match get (nip11HttpUrl relayUrl) "application/nostr+json" with
  | .error error => some (.error (.nip11Fetch relayUrl ("HTTP request failed: " ++ error)))
  | .ok chunks =>
    (readBody relayUrl [] chunks).map fun read =>
      match read with
      | .error error => .error error
      | .ok body =>
        match limitsFromBytes fromJson relayUrl body with
        | .ok limits => .ok limits
        | .error _ => .error (.nip11Fetch relayUrl "response was not a valid bounded NIP-11 document")

/-- Limits the pagination can work with. -/
structure RelayLimits.Usable (limits : RelayLimits) : Prop where
  maxLimit : 1 ≤ limits.maxLimit ∧ limits.maxLimit ≤ maxAdvertisedLimit
  maxSubscriptions : 1 ≤ limits.maxSubscriptions ∧ limits.maxSubscriptions < 2 ^ 31
  maxFilters : 1 ≤ limits.maxFilters ∧ limits.maxFilters < 2 ^ 31

theorem clampLimit_bounds (advertised : Option Int32) {default : Nat} (positive : 1 ≤ default) (small : default < 2 ^ 31) :
    1 ≤ clampLimit advertised default ∧ clampLimit advertised default < 2 ^ 31 := by
  unfold clampLimit
  split
  · rename_i value
    have bound := value.toInt_lt
    split <;> omega
  · exact ⟨positive, small⟩

theorem RelayLimits.usable_defaults : RelayLimits.defaults.Usable := ⟨by decide, by decide, by decide⟩

/-- Whatever a document advertises, its limits are usable. -/
theorem limitsFromDoc_usable (doc : RelayInformationDocument) : (limitsFromDoc doc).Usable := by
  unfold limitsFromDoc
  split
  · exact RelayLimits.usable_defaults
  · rename_i limitation _
    refine ⟨?_, clampLimit_bounds _ (by decide) (by decide), clampLimit_bounds _ (by decide) (by decide)⟩
    have bounds := clampLimit_bounds limitation.maxLimit (show 1 ≤ defaultMaxLimit by decide) (by decide)
    exact ⟨le_min bounds.1 (by decide), min_le_right _ _⟩

section Body

variable {fromJson : DocumentParser} {relayUrl : String} {body : Bytes} {chunks : List Chunk}

/-- The chunks of a body, before its end. -/
def sent (parts : List Bytes) : List Chunk := parts.map fun bytes => .ok (some bytes)

/-- Parts within the bound are collected, and the first that goes beyond it ends the loop. -/
theorem readBody_sent (parts : List Bytes) (rest : List Chunk) (bounded : body.length ≤ maxNip11Bytes) :
    readBody relayUrl body (sent parts ++ rest) =
      if body.length + parts.flatten.length ≤ maxNip11Bytes then readBody relayUrl (body ++ parts.flatten) rest
      else some (.error (bodyExceeds relayUrl)) := by
  induction parts generalizing body with
  | nil => simp [sent, bounded]
  | cons bytes parts ih =>
    have step : readBody relayUrl body (sent (bytes :: parts) ++ rest) =
        if body.length + bytes.length > maxNip11Bytes then
          some (.error (bodyExceeds relayUrl))
        else readBody relayUrl (body ++ bytes) (sent parts ++ rest) := rfl
    have total : body.length + (bytes :: parts).flatten.length =
        (body ++ bytes).length + parts.flatten.length := by
      simp [Nat.add_assoc]
    rw [step, total]
    by_cases beyond : body.length + bytes.length > maxNip11Bytes
    · rw [if_pos beyond, if_neg (by rw [List.length_append]; omega)]
    · have within : (body ++ bytes).length ≤ maxNip11Bytes := by
        rw [List.length_append]
        omega
      rw [if_neg beyond, ih within, List.flatten_cons, List.append_assoc]

/-- Whatever the client reports is a number of chunks, and then the end, an error, or nothing yet. -/
theorem chunks_split (chunks : List Chunk) : ∃ parts, chunks = sent parts ∨ (∃ rest, chunks = sent parts ++ .ok none :: rest) ∨
    ∃ error rest, chunks = sent parts ++ .error error :: rest := by
  induction chunks with
  | nil => exact ⟨[], .inl rfl⟩
  | cons chunk rest ih =>
    match chunk with
    | .error error => exact ⟨[], .inr (.inr ⟨error, rest, rfl⟩)⟩
    | .ok none => exact ⟨[], .inr (.inl ⟨rest, rfl⟩)⟩
    | .ok (some bytes) =>
      obtain ⟨parts, more | ⟨tail, ended⟩ | ⟨error, tail, failed⟩⟩ := ih
      · exact ⟨bytes :: parts, .inl (congrArg _ more)⟩
      · exact ⟨bytes :: parts, .inr (.inl ⟨tail, congrArg _ ended⟩)⟩
      · exact ⟨bytes :: parts, .inr (.inr ⟨error, tail, congrArg _ failed⟩)⟩

private theorem bounded_nil : ([] : Bytes).length ≤ maxNip11Bytes := Nat.zero_le _

/-- More is awaited exactly while the parts are within the bound. -/
theorem readBody_eq_none_iff : readBody relayUrl [] chunks = none ↔
    ∃ parts, chunks = sent parts ∧ parts.flatten.length ≤ maxNip11Bytes := by
  have waits (parts : List Bytes) : readBody relayUrl [] (sent parts) =
      if parts.flatten.length ≤ maxNip11Bytes then none
      else some (.error (bodyExceeds relayUrl)) := by
    simpa [readBody] using readBody_sent parts [] bounded_nil
  constructor
  · intro waiting
    obtain ⟨parts, rfl | ⟨rest, rfl⟩ | ⟨error, rest, rfl⟩⟩ := chunks_split chunks
    · refine ⟨parts, rfl, ?_⟩
      by_contra beyond
      rw [waits, if_neg beyond] at waiting
      cases waiting
    · rw [readBody_sent parts _ bounded_nil] at waiting
      split at waiting <;> cases waiting
    · rw [readBody_sent parts _ bounded_nil] at waiting
      split at waiting <;> cases waiting
  · rintro ⟨parts, rfl, within⟩
    rw [waits, if_pos within]

/-- A body is read exactly where it ends within the bound. -/
theorem readBody_eq_ok_iff : readBody relayUrl [] chunks = some (.ok body) ↔
    ∃ parts rest, chunks = sent parts ++ .ok none :: rest ∧ parts.flatten.length ≤ maxNip11Bytes ∧ body = parts.flatten := by
  have ends (parts : List Bytes) (rest : List Chunk) : readBody relayUrl [] (sent parts ++ .ok none :: rest) =
      if parts.flatten.length ≤ maxNip11Bytes then some (.ok parts.flatten)
      else some (.error (bodyExceeds relayUrl)) := by
    simpa [readBody] using readBody_sent parts (.ok none :: rest) bounded_nil
  constructor
  · intro done
    obtain ⟨parts, rfl | ⟨rest, rfl⟩ | ⟨error, rest, rfl⟩⟩ := chunks_split chunks
    · rw [← List.append_nil (sent parts), readBody_sent parts [] bounded_nil] at done
      split at done <;> cases done
    · refine ⟨parts, rest, rfl, ?_⟩
      rw [ends] at done
      split at done
      · rename_i within
        exact ⟨within, (Except.ok.inj (Option.some.inj done)).symm⟩
      · cases done
    · rw [readBody_sent parts _ bounded_nil] at done
      split at done <;> cases done
  · rintro ⟨parts, rest, rfl, within, rfl⟩
    rw [ends, if_pos within]

/-- Every failure of the loop names the relay. -/
theorem readBody_error {error : RelayError} (failed : readBody relayUrl body chunks = some (.error error)) :
    ∃ reason, error = .nip11Fetch relayUrl reason := by
  fun_induction readBody relayUrl body chunks with
  | case1 => cases failed
  | case2 => exact ⟨_, (Except.error.inj (Option.some.inj failed)).symm⟩
  | case3 => cases failed
  | case4 => exact ⟨_, (Except.error.inj (Option.some.inj failed)).symm⟩
  | case5 _ _ _ _ ih => exact ih failed

end Body

theorem limitsFromBytes_ok {fromJson : DocumentParser} {relayUrl : String} {body : Bytes} {limits : RelayLimits}
    (read : limitsFromBytes fromJson relayUrl body = .ok limits) : body.length ≤ maxNip11Bytes ∧ limits.Usable := by
  unfold limitsFromBytes limitsFromJson at read
  split at read
  · cases read
  · rename_i within
    split at read
    · cases read
    · rename_i doc _
      exact ⟨Nat.le_of_not_gt within, Except.ok.inj read ▸ limitsFromDoc_usable doc⟩

section Download

variable {fromJson : DocumentParser} {get : HttpGet} {relayUrl : String} {limits : RelayLimits} {chunks : List Chunk}

/-- The document of a body that was read. -/
private theorem fetchLimits_got (got : get (nip11HttpUrl relayUrl) "application/nostr+json" = .ok chunks) :
    fetchLimits fromJson get relayUrl = (readBody relayUrl [] chunks).map fun read =>
      match read with
      | .error error => .error error
      | .ok body =>
        match limitsFromBytes fromJson relayUrl body with
        | .ok limits => .ok limits
        | .error _ => .error (.nip11Fetch relayUrl "response was not a valid bounded NIP-11 document") := by
  rw [fetchLimits, got]

private theorem fetchLimits_ok_iff : fetchLimits fromJson get relayUrl = some (.ok limits) ↔
    ∃ parts rest, get (nip11HttpUrl relayUrl) "application/nostr+json" = .ok (sent parts ++ .ok none :: rest) ∧
      limitsFromBytes fromJson relayUrl parts.flatten = .ok limits := by
  constructor
  · intro fetched
    cases got : get (nip11HttpUrl relayUrl) "application/nostr+json" with
    | error error =>
      rw [fetchLimits, got] at fetched
      cases fetched
    | ok chunks =>
      rw [fetchLimits_got got] at fetched
      obtain ⟨read, downloaded, made⟩ := Option.map_eq_some_iff.mp fetched
      split at made
      · cases made
      · split at made
        · rename_i body _ document
          obtain ⟨parts, rest, rfl, _, rfl⟩ := readBody_eq_ok_iff.mp downloaded
          obtain rfl := Except.ok.inj made
          exact ⟨parts, rest, rfl, document⟩
        · cases made
  · rintro ⟨parts, rest, got, document⟩
    have within := (limitsFromBytes_ok document).1
    rw [fetchLimits_got got, readBody_eq_ok_iff.mpr ⟨parts, rest, rfl, within, rfl⟩]
    simp only [Option.map_some, document]

/-- What is downloaded is usable, whatever the server sends. -/
theorem fetchLimits_usable (fetched : fetchLimits fromJson get relayUrl = some (.ok limits)) : limits.Usable := by
  obtain ⟨parts, rest, _, document⟩ := fetchLimits_ok_iff.mp fetched
  exact (limitsFromBytes_ok document).2

private theorem fetchLimits_error {error : RelayError} (failed : fetchLimits fromJson get relayUrl = some (.error error)) :
    ∃ reason, error = .nip11Fetch relayUrl reason := by
  cases got : get (nip11HttpUrl relayUrl) "application/nostr+json" with
  | error reason =>
    rw [fetchLimits, got] at failed
    exact ⟨_, (Except.error.inj (Option.some.inj failed)).symm⟩
  | ok chunks =>
    rw [fetchLimits_got got] at failed
    obtain ⟨read, downloaded, made⟩ := Option.map_eq_some_iff.mp failed
    split at made
    · obtain rfl := Except.error.inj made
      exact readBody_error downloaded
    · split at made
      · cases made
      · exact ⟨_, (Except.error.inj made).symm⟩

private theorem fetchLimits_none_iff : fetchLimits fromJson get relayUrl = none ↔
    ∃ parts, get (nip11HttpUrl relayUrl) "application/nostr+json" = .ok (sent parts) ∧
      parts.flatten.length ≤ maxNip11Bytes := by
  cases got : get (nip11HttpUrl relayUrl) "application/nostr+json" with
  | error reason =>
    rw [fetchLimits, got]
    simp
  | ok chunks =>
    rw [fetchLimits_got got, Option.map_eq_none_iff, readBody_eq_none_iff]
    simp only [Except.ok.injEq]

/-- The download agrees with `limits_from_bytes` on the whole body, however the server cuts it: it
yields limits exactly where the chunks up to the end make a bounded document with those limits. They
are usable whatever the server sends, every failure names the relay, and more is awaited only while
all that came, at most `MAX_NIP11_BYTES`, is held. -/
theorem fetchLimits_agrees (fromJson : DocumentParser) (get : HttpGet) (relayUrl : String) :
    (∀ limits, fetchLimits fromJson get relayUrl = some (.ok limits) ↔
      ∃ parts rest, get (nip11HttpUrl relayUrl) "application/nostr+json" = .ok (sent parts ++ .ok none :: rest) ∧
        limitsFromBytes fromJson relayUrl parts.flatten = .ok limits) ∧
    (∀ limits, fetchLimits fromJson get relayUrl = some (.ok limits) → limits.Usable) ∧
    (∀ error, fetchLimits fromJson get relayUrl = some (.error error) → ∃ reason, error = .nip11Fetch relayUrl reason) ∧
    (fetchLimits fromJson get relayUrl = none ↔
      ∃ parts, get (nip11HttpUrl relayUrl) "application/nostr+json" = .ok (sent parts) ∧
        parts.flatten.length ≤ maxNip11Bytes) :=
  ⟨fun _ => fetchLimits_ok_iff, fun _ => fetchLimits_usable, fun _ => fetchLimits_error, fetchLimits_none_iff⟩

end Download

end WotCrawler.Relay
