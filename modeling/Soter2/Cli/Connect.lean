import Mathlib.Data.List.Basic
import Mathlib.Tactic.Common
import Soter2.E2ee.Pubuid
import Soter2.Interface.Connections
import Soter2.Peers.System
import Soter2.Uhttp.Params

/-! # Connecting over the interface (`cli/src/peer`, `cli/src/main.c`)

A peer is connected to by a POST that names its address and the text of its key (`s2_pubuid`). `Api`
are the libraries behind the handlers: base64, the resolver and the JSON writer.

* `connect_iff` — the peer that printed the text is the one that is stored and punched, unless the
  text was not encoded and has a `+`.
* `link_by_pubuid` — then three packets make both sides active, each with the key of the other.
-/

namespace Soter2.Cli

open FormEncoding Text
open Soter2.E2ee Soter2.Interface Soter2.Lownet Soter2.Peers Soter2.Protocol Soter2.Rudp
  Soter2.Uhttp

/-- What the handlers read and write of `s2_systems`, with the clock; `sent` is what was given to
    the sender. -/
structure S2Systems where
  ctx : AppContext
  sockAddr : Naddr
  idPub : Bytes keyBytes
  conns : S2Connections
  sent : List (Option Protopack × NnetFd)
  /-- What closed connections gave to the sender, each for the address that it has. -/
  fins : List Protopack

inductive JsonValue where
  | str (text : List UInt8)
  | int (n : Int)
deriving DecidableEq, Repr

structure Api where
  codec : Base64Codec
  gethostbyname : List UInt8 → Option (List UInt8)
  /-- `ujson_wo_serialize`, of the members of the object in their order. -/
  serialize : List (List UInt8 × JsonValue) → Option (List UInt8)

variable (api : Api)

def s2Pubuid (s : S2Systems) : List UInt8 := cryptoEncodePubkeyUid api.codec s.idPub s.ctx.selfUid

/-- A response with a text as its body. -/
def answerText (statusCode : Int) (statusText body : List UInt8) (contentType : UhttpContentType) :
    UhttpResponse :=
  uhttpCreateResponseq statusCode (some statusText) (some body) sizeMax contentType

/-- `_actual_handler` of `handler_connect.c`: its code, the UID, and the systems. -/
def actualHandler (s : S2Systems) (uniPm portPm pubuidPm : List UInt8) : Int × UInt32 × S2Systems :=
  let port := UInt16.ofInt (atoi portPm)
  match cryptoDecodePubkeyUid api.codec.base642bin pubuidPm with
  | none => (-1, 0, s)
  | some (pubkey, uid) =>
    match lnUni s.ctx.inet api.gethostbyname uniPm port with
    | none => (-2, uid, s)
    | some addr =>
      let db := s2SysNewPeer s.ctx s.conns.peers addr Naddr.zero uid pubkey
      let (code, sent) := s2SysNatPunch s.ctx s.sockAddr s.idPub db uid
      if code < 0 then (-4, uid, { s with conns := { s.conns with peers := peersDbRemove db uid } })
      else (0, uid, { s with conns := { s.conns with peers := db }, sent := s.sent ++ sent })

/-- The members of the JSON object that says that the peer is connected to. -/
def connectingJson (uniPm portPm : List UInt8) (uid : UInt32) : List (List UInt8 × JsonValue) :=
  let fmted := (ascii "Connecting to peer at " ++ uniPm ++ ascii ":" ++ portPm).take 511
  [(ascii "status", .str (ascii "ok")), (ascii "message", .str fmted),
    (ascii "uid", .int uid.toNat)]

def badPubuid : UhttpResponse :=
  answerText 400 (ascii "Bad Request") (ascii "Failed to decode pubuid to pubkey and uid")
    .textPlain

/-- The response for what `_actual_handler` returned. -/
def connectAnswer (uniPm portPm : List UInt8) (r : Int) (uid : UInt32) : UhttpResponse :=
  if r = -1 then badPubuid
  else if r = -2 then
    answerText 400 (ascii "Bad Request") (ascii "Invalid IP address/Domain") .textPlain
  else if r = -4 then
    answerText 500 (ascii "Internal Server Error") (ascii "Failed to NAT punch") .textPlain
  else
    match api.serialize (connectingJson uniPm portPm uid) with
    | none =>
      uhttpCreateResponseq 500 (some (ascii "Failed to serialize JSON response")) none 0 .textPlain
    | some jresp => answerText 200 (ascii "OK") jresp .applicationJson

def handlePeerConnect (req : UhttpHighRequest) (s : S2Systems) : UhttpResponse × S2Systems :=
  if req.req.method ≠ .post then
    (uhttpCreateResponseq 405 (some (ascii "Method not allowed")) none 0 .textPlain, s)
  else if uhttpAnyParams req.req = false then
    (answerText 400 (ascii "Bad request") (ascii "No query params") .textPlain, s)
  else
    let names := [ascii "uni", ascii "port", ascii "pubuid"]
    let (code, parsed) := uhttpParseParams req.req names
    if code ≠ 0 then
      (answerText 400 (ascii "Bad Request") (ascii "Missing required parameters: uni, port, pubuid")
        .textPlain, s)
    else
      let params := parsedParams names parsed
      -- all three are there, or the code were not 0
      let uniPm := (uhttpGetParam params (ascii "uni")).getD []
      let portPm := (uhttpGetParam params (ascii "port")).getD []
      let pubuidPm := (uhttpGetParam params (ascii "pubuid")).getD []
      let (r, uid, s) := actualHandler api s uniPm portPm pubuidPm
      (connectAnswer api uniPm portPm r uid, s)

/-- The members of the JSON object that says that a peer is gone. -/
def disconnectedJson (uid : UInt32) : List (List UInt8 × JsonValue) :=
  let fmted := (ascii "Disconnected from peer " ++ decimal uid.toNat).take 511
  [(ascii "status", .str (ascii "ok")), (ascii "message", .str fmted)]

def handlePeerDisconnect (req : UhttpHighRequest) (s : S2Systems) : UhttpResponse × S2Systems :=
  if req.req.method ≠ .post then
    (uhttpCreateResponseq 405 (some (ascii "Method Not Allowed")) none 0 .textPlain, s)
  else if uhttpAnyParams req.req = false then
    (answerText 400 (ascii "Bad request") (ascii "No query params") .textPlain, s)
  else
    let names := [ascii "uid"]
    let (code, parsed) := uhttpParseParams req.req names
    if code ≠ 0 then
      (answerText 400 (ascii "Bad Request") (ascii "Missing required parameters: uid")
        .textPlain, s)
    else
      let uid :=
        UInt32.ofInt (atoi ((uhttpGetParam (parsedParams names parsed) (ascii "uid")).getD []))
      let (r, conns, fins) := s2SysCloseconn s.conns uid
      let s := { s with conns := conns, fins := s.fins ++ fins }
      if r < 0 then (answerText 404 (ascii "Not Found") (ascii "Peer not found") .textPlain, s)
      else
        match api.serialize (disconnectedJson uid) with
        | none =>
          (uhttpCreateResponseq 500 (some (ascii "Failed to serialize JSON response")) none 0
            .textPlain, s)
        | some jresp => (answerText 200 (ascii "OK") jresp .applicationJson, s)

/-- The routes as `main` sets them; the others behind these two have handlers of their own. -/
def cliRoutes (others : List (UhttpRoute S2Systems)) : List (UhttpRoute S2Systems) :=
  ⟨ascii "/api/peer/connect", handlePeerConnect api⟩ ::
    ⟨ascii "/api/peer/disconnect", handlePeerDisconnect api⟩ :: others

/-! ## What a request says -/

/-- The query gives the parameter this value. -/
def Gives (pieces : List (List UInt8)) (name value : List UInt8) : Prop :=
  ∃ encoded, pieceOf pieces name = some encoded ∧ Encodes value encoded

/-- A value that fits in a parameter and has no zero byte. -/
def Fits (value : List UInt8) : Prop := 0 ∉ value ∧ value.length ≤ 1023

/-- What is read of the value of a parameter. -/
def readValue (encoded : List UInt8) : List UInt8 := cString (decodeLoop 1023 encoded ++ [0])

variable {api} {pieces names : List (List UInt8)} {s : S2Systems} {req : UhttpHighRequest}

theorem readValue_encoded {value encoded : List UInt8} (fits : Fits value)
    (encodes : Encodes value encoded) : readValue encoded = value := by
  have plain : ∀ c ∈ value, decide (c ≠ 0) = true := fun c member => decide_eq_true fun zero =>
    fits.1 (zero ▸ member)
  rw [readValue, decodeLoop_encodes encodes, List.take_of_length_le fits.2, cString,
    List.takeWhile_append_of_pos plain, List.takeWhile_cons_of_neg (by decide), List.append_nil]

/-- A value that was not encoded is read with its blanks for the signs. -/
theorem readValue_unescaped {text : List UInt8} (fits : Fits text) (unescaped : percent ∉ text) :
    readValue text = text.map fun c => if c = plus then space else c := by
  have plain : ∀ c ∈ text.map (fun c => if c = plus then space else c), decide (c ≠ 0) = true := by
    intro c member
    obtain ⟨d, inside, rfl⟩ := List.mem_map.mp member
    refine decide_eq_true ?_
    split
    · decide
    · exact fun zero => fits.1 (zero ▸ inside)
  have whole : (text.map fun c => if c = plus then space else c).length ≤ 1023 := by
    rw [List.length_map]; exact fits.2
  rw [readValue, decodeLoop_unescaped unescaped, List.take_of_length_le whole, cString,
    List.takeWhile_append_of_pos plain, List.takeWhile_cons_of_neg (by decide), List.append_nil]

theorem Gives.reads {name value : List UInt8} (given : Gives pieces name value)
    (fits : Fits value) : (pieceOf pieces name).map readValue = some value := by
  obtain ⟨encoded, found, encodes⟩ := given
  rw [found, Option.map_some, readValue_encoded fits encodes]

theorem uhttpGetParam_parsed {name : List UInt8} (member : name ∈ names) :
    uhttpGetParam (parsedParams names (names.map fun name => scanned 1024 (pieceOf pieces name)))
      name
      = (pieceOf pieces name).map readValue := by
  have value : ∀ found : Option (List UInt8), (scanned 1024 found).out.map cString
      = found.map readValue := by
    rintro (_ | _) <;> rfl
  rw [uhttpGetParam, parsedParams, List.zipWith_map_right, List.zipWith_self]
  induction names with
  | nil => cases member
  | cons first names ih =>
    by_cases here : first = name
    · subst here
      rw [List.map_cons, List.find?_cons_of_pos (by simp), Option.bind_some, value]
    · rw [List.map_cons, List.find?_cons_of_neg (by simpa using here)]
      exact ih ((List.mem_cons.mp member).resolve_left (Ne.symm here))

/-! ## The handler for a query that is complete -/

theorem handlePeerConnect_eq {front uni port pubuid : List UInt8} (post : req.req.method = .post)
    (asks : Asks req.req front pieces)
    (uniGiven : (pieceOf pieces (ascii "uni")).map readValue = some uni)
    (portGiven : (pieceOf pieces (ascii "port")).map readValue = some port)
    (pubuidGiven : (pieceOf pieces (ascii "pubuid")).map readValue = some pubuid) :
    handlePeerConnect api req s =
      let (r, uid, s') := actualHandler api s uni port pubuid
      (connectAnswer api uni port r uid, s') := by
  have plain : ∀ name ∈ [ascii "uni", ascii "port", ascii "pubuid"], name ≠ [] ∧
      ampersand ∉ name := by decide
  have all : ∀ name ∈ [ascii "uni", ascii "port", ascii "pubuid"],
      (pieceOf pieces name).isSome := by
    intro name member
    have given : ((pieceOf pieces name).map readValue).isSome := by
      simp only [List.mem_cons, List.not_mem_nil, or_false] at member
      rcases member with rfl | rfl | rfl
      · rw [uniGiven]; rfl
      · rw [portGiven]; rfl
      · rw [pubuidGiven]; rfl
    simpa using given
  rw [handlePeerConnect, if_neg (not_not.mpr post), if_neg (by simp [asks.anyParams])]
  simp only [uhttpParseParams_pieces asks plain, if_pos all, ne_eq, not_true, if_false]
  rw [uhttpGetParam_parsed (by simp), uhttpGetParam_parsed (by simp),
    uhttpGetParam_parsed (by simp), uniGiven, portGiven, pubuidGiven]
  rfl

/-! ## The peer behind the text -/

/-- The PUNCH of `s2_sys_nat_punch` to a peer of no server. -/
def punchPack (s : S2Systems) (uid : UInt32) : Protopack where
  seq := 0
  chsum := 0
  dSize := 140
  hFrom := s.ctx.selfUid
  hTo := uid
  packtype := ProtopackType.punch.code
  data := LightPeerInfo.layout.image ⟨s.ctx.selfUid, Naddr.zero, s.sockAddr, s.idPub⟩

/-- The record of a peer that was just asked to be connected to. -/
def freshPeer (s : S2Systems) (addr : Naddr) (uid : UInt32) (pubkey : Bytes keyBytes) :
    PeerInfo where
  server := Naddr.zero
  state := .inited
  uid := uid
  lastSeen := s.ctx.now
  pubkey := pubkey
  nfd := lnNetfdq s.ctx.inet addr

/-- The systems after the peer was stored and punched. -/
def connected (s : S2Systems) (addr : Naddr) (uid : UInt32) (pubkey : Bytes keyBytes) : S2Systems :=
  { s with
    conns := { s.conns with peers := peersDbAdd s.conns.peers (freshPeer s addr uid pubkey) }
    sent := s.sent ++ [(some (punchPack s uid), lnNetfdq s.ctx.inet addr)] }

theorem atoi_port (port : UInt16) : UInt16.ofInt (atoi (decimal port.toNat)) = port := by
  rw [atoi_decimal]
  apply UInt16.toNat_inj.mp
  have bound := port.toNat_lt
  simp only [UInt16.ofInt, UInt16.toNat_ofNat']
  omega

theorem actualHandler_decoded {uni pubuid : List UInt8} {port : UInt16} {pubkey : Bytes keyBytes}
    {uid : UInt32} {addr : Naddr}
    (decoded : cryptoDecodePubkeyUid api.codec.base642bin pubuid = some (pubkey, uid))
    (resolved : lnUni s.ctx.inet api.gethostbyname uni port = some addr) :
    actualHandler api s uni (decimal port.toNat) pubuid
      = (0, uid, connected s addr uid pubkey) := by
  have punch := get_s2SysNewPeer s.ctx s.conns.peers addr Naddr.zero uid pubkey
  rw [actualHandler, decoded]
  simp only [atoi_port, resolved, s2SysNatPunch, punch, protoPunchMsg_image]
  rfl

/-- The request asks for the peer at this address, with `encoded` for the text of its key. -/
structure Request (req : UhttpHighRequest) (uni : List UInt8) (port : UInt16) (encoded : List UInt8)
    (pieces : List (List UInt8)) : Prop where
  post : req.req.method = .post
  asks : Asks req.req (ascii "/api/peer/connect") pieces
  uniGiven : Gives pieces (ascii "uni") uni
  uniFits : Fits uni
  portGiven : Gives pieces (ascii "port") (decimal port.toNat)
  pubuidGiven : pieceOf pieces (ascii "pubuid") = some encoded

variable {uni encoded : List UInt8} {port : UInt16} {pubkey : Bytes keyBytes} {uid : UInt32}
    {addr : Naddr}

theorem fits_decimal (port : UInt16) : Fits (decimal port.toNat) := by
  refine ⟨fun zero => absurd (isDigit_of_mem_decimal zero) (by decide), ?_⟩
  have short : (decimal port.toNat).length ≤ 5 :=
    (length_decimal_le_iff (by decide)).mpr (by have := port.toNat_lt; omega)
  omega

theorem Request.respond_eq (request : Request req uni port encoded pieces)
    (others : List (UhttpRoute S2Systems)) :
    respond (cliRoutes api others) s req =
      let (r, uid, s') := actualHandler api s uni (decimal port.toNat) (readValue encoded)
      (connectAnswer api uni (decimal port.toNat) r uid, s') := by
  have route : uhttpGetClearRoute req.req = ascii "/api/peer/connect" :=
    uhttpGetClearRoute_query request.asks.path request.asks.noMark
  have first : (cliRoutes api others).find? (fun route => route.Matches req)
      = some ⟨ascii "/api/peer/connect", handlePeerConnect api⟩ :=
    List.find?_cons_of_pos (decide_eq_true route)
  rw [respond, first]
  exact handlePeerConnect_eq request.post request.asks (request.uniGiven.reads request.uniFits)
    (request.portGiven.reads (fits_decimal port)) (by rw [request.pubuidGiven, Option.map_some])

/-- A text that decodes to a key and a UID connects to the peer. -/
theorem Request.connects (request : Request req uni port encoded pieces)
    (others : List (UhttpRoute S2Systems))
    (decoded : cryptoDecodePubkeyUid api.codec.base642bin (readValue encoded) = some (pubkey, uid))
    (resolved : lnUni s.ctx.inet api.gethostbyname uni port = some addr) {jresp : List UInt8}
    (json : api.serialize (connectingJson uni (decimal port.toNat) uid) = some jresp) :
    respond (cliRoutes api others) s req
      = (answerText 200 (ascii "OK") jresp .applicationJson, connected s addr uid pubkey) := by
  rw [request.respond_eq, actualHandler_decoded decoded resolved]
  simp [connectAnswer, json]

/-- Any other text is answered with an error, and nothing else happens. -/
theorem Request.refused (request : Request req uni port encoded pieces)
    (others : List (UhttpRoute S2Systems))
    (decoded : cryptoDecodePubkeyUid api.codec.base642bin (readValue encoded) = none) :
    respond (cliRoutes api others) s req = (badPubuid, s) := by
  rw [request.respond_eq, actualHandler, decoded]
  simp [connectAnswer]

theorem fits_pubuid (documented : api.codec.Documented) (peer : S2Systems) :
    Fits (s2Pubuid api peer) :=
  ⟨not_mem_pubuid documented _ _ (by decide), by rw [s2Pubuid, length_pubuid documented]; omega⟩

/-- The text of a key, as it is read if it was not encoded. -/
theorem readValue_pubuid (documented : api.codec.Documented) (peer : S2Systems) :
    readValue (s2Pubuid api peer) = (s2Pubuid api peer).map fun c => if c = plus then space
      else c :=
  readValue_unescaped (fits_pubuid documented peer) (not_mem_pubuid documented _ _ (by decide))

/-- A text of a key with a `+` is not its own encoding. -/
theorem not_mem_of_encodes_self (documented : api.codec.Documented) (peer : S2Systems)
    (encodes : Encodes (s2Pubuid api peer) (s2Pubuid api peer)) : plus ∉ s2Pubuid api peer := by
  have read := (readValue_encoded (fits_pubuid documented peer) encodes).symm.trans
    (readValue_pubuid documented peer)
  intro sign
  rw [read] at sign
  obtain ⟨c, -, same⟩ := List.mem_map.mp sign
  split at same
  next => exact absurd same (by decide)
  next other => exact other same

/-- The peer is stored and punched, and nothing else changes. -/
structure ConnectsTo (s : S2Systems) (addr : Naddr) (uid : UInt32) (pubkey : Bytes keyBytes)
    (answer : UhttpResponse × S2Systems) : Prop where
  code : answer.1.statusCode = 200
  stored : peersDbGet answer.2.conns.peers uid = some (freshPeer s addr uid pubkey)
  others : ∀ w ≠ uid, peersDbGet answer.2.conns.peers w = peersDbGet s.conns.peers w
  punched : answer.2.sent = s.sent ++ [(some (punchPack s uid), lnNetfdq s.ctx.inet addr)]
  rest : answer.2 = { s with
    conns := { s.conns with peers := answer.2.conns.peers }
    sent := answer.2.sent }

theorem connectsTo_connected (response : UhttpResponse) (ok : response.statusCode = 200) :
    ConnectsTo s addr uid pubkey (response, connected s addr uid pubkey) where
  code := ok
  stored := get_peersDbAdd_self _ _
  others _ other := get_peersDbAdd_ne _ _ other
  punched := rfl
  rest := rfl

/-- A peer that printed the text of its key is stored and punched exactly if the text was encoded in
    the query or has no `+`; else nothing happens. -/
theorem connect_iff (documented : api.codec.Documented) (peer s : S2Systems)
    (others : List (UhttpRoute S2Systems)) (request : Request req uni port encoded pieces)
    (written : Encodes (s2Pubuid api peer) encoded ∨ encoded = s2Pubuid api peer)
    (resolved : lnUni s.ctx.inet api.gethostbyname uni port = some addr)
    (json : api.serialize (connectingJson uni (decimal port.toNat) peer.ctx.selfUid) ≠ none) :
    (ConnectsTo s addr peer.ctx.selfUid peer.idPub (respond (cliRoutes api others) s req) ↔
      Encodes (s2Pubuid api peer) encoded ∨ plus ∉ s2Pubuid api peer) ∧
    (¬ (Encodes (s2Pubuid api peer) encoded ∨ plus ∉ s2Pubuid api peer) →
      respond (cliRoutes api others) s req = (badPubuid, s)) := by
  have decodes : cryptoDecodePubkeyUid api.codec.base642bin (s2Pubuid api peer)
      = some (peer.idPub, peer.ctx.selfUid) :=
    decodePubkeyUid_encode documented _ _
  have fits := fits_pubuid documented peer
  obtain ⟨jresp, json⟩ := Option.ne_none_iff_exists'.mp json
  have connects (decoded : readValue encoded = s2Pubuid api peer) :
      ConnectsTo s addr peer.ctx.selfUid peer.idPub (respond (cliRoutes api others) s req) := by
    rw [request.connects others (decoded ▸ decodes) resolved json]
    exact connectsTo_connected _ rfl
  have refused (lost : ¬ (Encodes (s2Pubuid api peer) encoded ∨ plus ∉ s2Pubuid api peer)) :
      respond (cliRoutes api others) s req = (badPubuid, s) := by
    obtain ⟨notEncoded, sign⟩ := not_or.mp lost
    have raw : encoded = s2Pubuid api peer := written.resolve_left notEncoded
    apply request.refused others
    -- the `+` is read as a blank, which no text of a key has
    rw [raw]
    refine decodePubkeyUid_spaced documented ?_
    rw [readValue_pubuid documented]
    exact List.mem_map.mpr ⟨plus, not_not.mp sign, rfl⟩
  refine ⟨⟨fun done => ?_, fun well => ?_⟩, refused⟩
  · by_contra lost
    rw [refused lost] at done
    exact absurd (show (400 : Int) = 200 from done.code) (by decide)
  · rcases well with encodes | noPlus
    · exact connects (readValue_encoded fits encodes)
    · rcases written with encodes | raw
      · exact connects (readValue_encoded fits encodes)
      · apply connects
        have same : ∀ c ∈ s2Pubuid api peer, (if c = plus then space else c) = c := fun c member =>
          if_neg fun sign : c = plus => noPlus (sign ▸ member)
        rw [raw, readValue_pubuid documented]
        exact (List.map_congr_left same).trans (List.map_id' _)

/-! ## The packets that follow -/

/-- The watcher hands a packet to the handler of its type. -/
def receive (type : PeerPacket) (s : S2Systems) (pck : Protopack) (nfd : NnetFd) (now : UInt32) :
    S2Systems :=
  let handled := type.handler { s.ctx with now := now } s.conns.peers pck nfd
  { s with conns := { s.conns with peers := handled.db }, sent := s.sent ++ handled.sent }

/-- The ACK of a peer. -/
def ackTo (s : S2Systems) (uid : UInt32) : Protopack where
  seq := 0
  chsum := 0
  dSize := 0
  hFrom := s.ctx.selfUid
  hTo := uid
  packtype := ProtopackType.ack.code
  data := []

/-- `s` holds the key of `t`, and the peer for an active one. -/
def Linked (s t : S2Systems) : Prop :=
  ∃ info, peersDbGet s.conns.peers t.ctx.selfUid = some info ∧ info.state = .active ∧
    info.pubkey = t.idPub

theorem get_punched (db : PeersDb) (info : PeerInfo) (nfd : NnetFd) :
    peersDbGet (peersDbSchange (peersDbUnfd (peersDbAdd db info) info.uid nfd) info.uid
      .natpunching) info.uid
      = some { info with nfd := nfd, state := .natpunching } := by
  simp [peersDbSchange, peersDbUnfd]

/-- A PUNCH from a stranger stores it under the UID and the key of its payload. -/
theorem receive_punch {a b : S2Systems} (distinct : a.ctx.selfUid ≠ b.ctx.selfUid) (nfd : NnetFd)
    (now : UInt32) (stranger : peersDbGet a.conns.peers b.ctx.selfUid = none) :
    ∃ info, peersDbGet (receive .punch a (punchPack b a.ctx.selfUid) nfd now).conns.peers
      b.ctx.selfUid = some info ∧
      info.state = .natpunching ∧ info.pubkey = b.idPub ∧
      (receive .punch a (punchPack b a.ctx.selfUid) nfd now).sent = a.sent ++
        [(some (ackTo a b.ctx.selfUid), nfd)] := by
  let ctx : AppContext := { a.ctx with now := now }
  have introduces : Introduces ctx a.conns.peers (punchPack b a.ctx.selfUid) :=
    ⟨distinct.symm, stranger, rfl⟩
  have embedded : embeddedInfo ctx (punchPack b a.ctx.selfUid)
      = peersDbReconstruct ctx.inet ctx.now ⟨b.ctx.selfUid, Naddr.zero, b.sockAddr, b.idPub⟩ := by
    rw [embeddedInfo, punchPack, Layout.ofImage_image]
  have handled : soter2HndPunch ctx a.conns.peers (punchPack b a.ctx.selfUid) nfd = _ :=
    (soter2HndPunch_introduces introduces).trans (punchKnown_inited (by rw [embedded]; rfl))
  rw [embedded] at handled
  simp only [receive, PeerPacket.handler]
  rw [show ({ a.ctx with now := now } : AppContext) = ctx from rfl, handled]
  exact ⟨_, get_punched _ _ _, rfl, rfl, rfl⟩

/-- An ACK makes its sender active, and is answered if it was asked for. -/
theorem receive_ack {s t : S2Systems} {info : PeerInfo} (nfd : NnetFd) (now : UInt32)
    (stored : peersDbGet s.conns.peers t.ctx.selfUid = some info) :
    peersDbGet (receive .ack s (ackTo t s.ctx.selfUid) nfd now).conns.peers t.ctx.selfUid
        = some { info with state := .active } ∧
      (receive .ack s (ackTo t s.ctx.selfUid) nfd now).sent
        = s.sent ++ if info.state = .inited then [(some (ackTo s t.ctx.selfUid), info.nfd)]
          else [] := by
  have uid := uid_of_get stored
  have found : peersDbGet s.conns.peers (ackTo t s.ctx.selfUid).hFrom = some info := stored
  simp only [receive, PeerPacket.handler, soter2HndAck, found, uid]
  refine ⟨by simp [peersDbSchange, stored, uid], ?_⟩
  split
  · rfl
  · rfl

/-- A peer that is connected to by the text of its key, and did not know of it, is linked with it
    when its first three packets have arrived. -/
theorem link_by_pubuid (documented : api.codec.Documented) (a b : S2Systems)
    (others : List (UhttpRoute S2Systems)) (request : Request req uni port encoded pieces)
    (encodes : Encodes (s2Pubuid api a) encoded)
    (resolved : lnUni b.ctx.inet api.gethostbyname uni port = some addr)
    (json : api.serialize (connectingJson uni (decimal port.toNat) a.ctx.selfUid) ≠ none)
    (distinct : a.ctx.selfUid ≠ b.ctx.selfUid)
    (stranger : peersDbGet a.conns.peers b.ctx.selfUid = none) (fromB fromA fromB' : NnetFd)
    (now now' now'' : UInt32) :
    ∃ punch ack ack' : Protopack,
      let b₁ := (respond (cliRoutes api others) b req).2
      let a₁ := receive .punch a punch fromB now
      let b₂ := receive .ack b₁ ack fromA now'
      let a₂ := receive .ack a₁ ack' fromB' now''
      b₁.sent = b.sent ++ [(some punch, lnNetfdq b.ctx.inet addr)] ∧
      a₁.sent = a.sent ++ [(some ack, fromB)] ∧
      b₂.sent = b₁.sent ++ [(some ack', lnNetfdq b.ctx.inet addr)] ∧
      a₂.sent = a₁.sent ∧ Linked a₂ b ∧ Linked b₂ a := by
  obtain ⟨jresp, json⟩ := Option.ne_none_iff_exists'.mp json
  have decoded : cryptoDecodePubkeyUid api.codec.base642bin (readValue encoded)
      = some (a.idPub, a.ctx.selfUid) := by
    rw [readValue_encoded (fits_pubuid documented a) encodes]
    exact decodePubkeyUid_encode documented _ _
  rw [request.connects others decoded resolved json]
  -- the PUNCH of `b`, the ACK of `a`, and the ACK of `b`
  refine ⟨punchPack b a.ctx.selfUid, ackTo a b.ctx.selfUid, ackTo b a.ctx.selfUid, rfl, ?_⟩
  obtain ⟨info, stored, punching, key, sent⟩ := receive_punch distinct fromB now stranger
  obtain ⟨active, answered⟩ := receive_ack (s := connected b addr a.ctx.selfUid a.idPub) (t := a)
    fromA now'
    (get_peersDbAdd_self _ (freshPeer b addr a.ctx.selfUid a.idPub))
  obtain ⟨active', silent⟩ := receive_ack
    (s := receive .punch a (punchPack b a.ctx.selfUid) fromB now) (t := b) fromB' now''
    stored
  refine ⟨sent, answered, ?_, ⟨_, active', rfl, key⟩, ⟨_, active, rfl, rfl⟩⟩
  exact silent.trans (by rw [punching]; exact List.append_nil _)

/-! ## Disconnecting -/

/-- The FIN that says that a connection is closed. -/
def finOf (conn : RudpConnection) : Protopack where
  seq := conn.currentSeq
  chsum := 0
  dSize := 0
  hFrom := conn.sUid
  hTo := conn.cUid
  packtype := ProtopackType.fin.code
  data := []

/-- The FINs for a peer: two, if there is a connection with it. -/
def finsFor (s : S2Systems) (uid : UInt32) : List Protopack :=
  (s.conns.disp.connections.get uid).elim [] fun conn => [finOf conn, finOf conn]

/-- The systems without the peer, which was sent two FINs if there was a connection with it. -/
structure GoneFrom (s : S2Systems) (uid : UInt32) (answer : UhttpResponse × S2Systems) : Prop where
  code : answer.1.statusCode = 200
  gone : peersDbGet answer.2.conns.peers uid = none ∧ answer.2.conns.connPtr uid = none
  others : ∀ w ≠ uid, peersDbGet answer.2.conns.peers w = peersDbGet s.conns.peers w ∧
    answer.2.conns.connPtr w = s.conns.connPtr w
  sent : answer.2.sent = s.sent
  fins : answer.2.fins = s.fins ++ finsFor s uid

/-- The request asks for the end of the connection to a peer, whose UID fits in an `int`. -/
structure EndRequest (req : UhttpHighRequest) (uid : UInt32) (pieces : List (List UInt8)) :
    Prop where
  post : req.req.method = .post
  asks : Asks req.req (ascii "/api/peer/disconnect") pieces
  given : Gives pieces (ascii "uid") (decimal uid.toNat)
  small : uid.toNat < 2 ^ 31

theorem atoi_uid (uid : UInt32) : UInt32.ofInt (atoi (decimal uid.toNat)) = uid := by
  rw [atoi_decimal]
  apply UInt32.toNat_inj.mp
  have bound := uid.toNat_lt
  simp only [UInt32.ofInt, UInt32.toNat_ofNat']
  omega

theorem fits_decimal_uid (uid : UInt32) : Fits (decimal uid.toNat) := by
  refine ⟨fun zero => absurd (isDigit_of_mem_decimal zero) (by decide), ?_⟩
  have short : (decimal uid.toNat).length ≤ 10 :=
    (length_decimal_le_iff (by decide)).mpr (by have := uid.toNat_lt; omega)
  omega

theorem EndRequest.respond_eq (request : EndRequest req uid pieces)
    (others : List (UhttpRoute S2Systems)) :
    respond (cliRoutes api others) s req =
      let (r, conns, fins) := s2SysCloseconn s.conns uid
      let s' := { s with conns := conns, fins := s.fins ++ fins }
      if r < 0 then (answerText 404 (ascii "Not Found") (ascii "Peer not found") .textPlain, s')
      else
        match api.serialize (disconnectedJson uid) with
        | none =>
          (uhttpCreateResponseq 500 (some (ascii "Failed to serialize JSON response")) none 0
            .textPlain, s')
        | some jresp => (answerText 200 (ascii "OK") jresp .applicationJson, s') := by
  have route : uhttpGetClearRoute req.req = ascii "/api/peer/disconnect" :=
    uhttpGetClearRoute_query request.asks.path request.asks.noMark
  -- the route of the request is the second that the client sets
  have second : (cliRoutes api others).find? (fun route => route.Matches req)
      = some ⟨ascii "/api/peer/disconnect", handlePeerDisconnect api⟩ := by
    have other : ¬ UhttpRoute.Matches req ⟨ascii "/api/peer/connect", handlePeerConnect api⟩ := by
      simp only [UhttpRoute.Matches, route]
      decide
    rw [cliRoutes, List.find?_cons_of_neg (by simpa using other)]
    exact List.find?_cons_of_pos (decide_eq_true route)
  have plain : ∀ name ∈ [ascii "uid"], name ≠ [] ∧ ampersand ∉ name := by decide
  have all : ∀ name ∈ [ascii "uid"], (pieceOf pieces name).isSome := by
    intro name member
    obtain rfl := List.mem_singleton.mp member
    obtain ⟨encoded, found, -⟩ := request.given
    rw [found]
    rfl
  rw [respond, second]
  simp only [handlePeerDisconnect, if_neg (not_not.mpr request.post), request.asks.anyParams,
    uhttpParseParams_pieces request.asks plain, if_pos all, ne_eq, not_true, if_false,
      Bool.true_eq_false]
  rw [uhttpGetParam_parsed (by simp), request.given.reads (fits_decimal_uid uid), Option.getD_some,
    atoi_uid]

/-- The JSON of texts that need no escapes. -/
def plainJson (members : List (List UInt8 × JsonValue)) : List UInt8 :=
  let quoted := fun text : List UInt8 => 34 :: text ++ [34]
  let value : JsonValue → List UInt8
    | .str text => quoted text
    | .int n => decimal n.toNat
  123 :: [44].intercalate (members.map fun m => quoted m.1 ++ 58 :: value m.2) ++ [125]

def sampleApi : Api where
  codec := base64Codec
  gethostbyname _ := none
  serialize members := some (plainJson members)

/-- A peer with a key of one byte. -/
def samplePeer (uid : UInt32) (b : UInt8) : S2Systems where
  ctx := ⟨uid, sampleInet, 0⟩
  sockAddr := (Address.ipv4 sampleText 80).naddr
  idPub := Vector.replicate 32 b
  conns := s2ConnectionsCreate uid
  sent := []
  fins := []

def samplePieces (encoded : List UInt8) : List (List UInt8) :=
  [ascii "uni=" ++ percentEncode sampleText.chars, ascii "port=" ++ percentEncode (decimal 80),
    ascii "pubuid=" ++ encoded]

def samplePost (encoded : List UInt8) : UhttpHighRequest where
  nfd := ⟨3, .unspec, 0⟩
  req := {
    method := .post
    path := ascii "/api/peer/connect" ++ 63 :: [ampersand].intercalate (samplePieces encoded)
    headers := []
    body := none
    bodyLen := 0
    contentLength := 0 }

theorem samplePost_request {encoded : List UInt8} (apart : ampersand ∉ encoded)
    (nonzero : 0 ∉ encoded) :
    Request (samplePost encoded) sampleText.chars 80 encoded (samplePieces encoded) := by
  have text : (samplePost encoded).req.path = ascii "/api/peer/connect" ++ 63 ::
      (ascii "uni=" ++ percentEncode sampleText.chars ++
      ampersand :: (ascii "port=" ++ percentEncode (decimal 80) ++ ampersand :: ascii "pubuid=")) ++
        encoded := by
    simp only [samplePost, samplePieces, List.intercalate_cons_cons, List.intercalate_singleton,
      List.append_assoc, List.cons_append, List.nil_append]
  have plain : ∀ c ∈ (samplePost encoded).req.path, decide (c ≠ 0) = true := by
    intro c member
    rw [text, List.mem_append] at member
    rcases member with front | behind
    · exact forall_of_all (P := fun c => decide (c ≠ 0) = true) (by decide) c front
    · exact decide_eq_true fun zero => nonzero (zero ▸ behind)
  constructor
  case post => rfl
  case asks =>
    refine ⟨List.takeWhile_eq_self_iff.mpr plain, by decide, List.cons_ne_nil _ _, ?_⟩
    simp only [samplePieces, List.mem_cons, List.not_mem_nil, or_false, forall_eq_or_imp, forall_eq,
      List.mem_append, not_or]
    exact ⟨by decide, by decide, by decide, apart⟩
  case uniGiven => exact ⟨_, rfl, encodes_percentEncode _⟩
  case uniFits => exact ⟨by decide, by decide⟩
  case portGiven => exact ⟨_, rfl, encodes_percentEncode _⟩
  case pubuidGiven => rfl

theorem sample_resolved : lnUni sampleInet sampleApi.gethostbyname sampleText.chars 80
    = some (Address.ipv4 sampleText 80).naddr := rfl

/-- The text of a key of bytes `0xfb` has a `+`, and is refused as it was printed. -/
theorem connect_iff_pasted :
    plus ∈ s2Pubuid sampleApi (samplePeer 7 0xfb) ∧
    respond (cliRoutes sampleApi []) (samplePeer 9 0)
      (samplePost (s2Pubuid sampleApi (samplePeer 7 0xfb)))
      = (badPubuid, samplePeer 9 0) := by
  have sign : plus ∈ s2Pubuid sampleApi (samplePeer 7 0xfb) := by decide +kernel
  have notEncoded : ¬ Encodes (s2Pubuid sampleApi (samplePeer 7 0xfb))
      (s2Pubuid sampleApi (samplePeer 7 0xfb)) :=
    fun encodes => not_mem_of_encodes_self base64Codec_documented _ encodes sign
  refine ⟨sign, (connect_iff base64Codec_documented (samplePeer 7 0xfb) (samplePeer 9 0) []
    (samplePost_request (by decide +kernel) (by decide +kernel)) (.inr rfl) sample_resolved
      (Option.some_ne_none _)).2 ?_⟩
  exact not_or.mpr ⟨notEncoded, not_not.mpr sign⟩

/-- Peer 9 is given the text of the key of peer 7, encoded. -/
def samplePasted : UhttpHighRequest :=
  samplePost (percentEncode (s2Pubuid sampleApi (samplePeer 7 1)))

theorem link_by_pubuid_sample :
    ∃ punch ack ack' : Protopack,
      Linked (receive .ack (receive .punch (samplePeer 7 1) punch ⟨5, .unspec, 0⟩ 0) ack'
        ⟨5, .unspec, 0⟩ 0) (samplePeer 9 2) ∧
      Linked (receive .ack (respond (cliRoutes sampleApi []) (samplePeer 9 2) samplePasted).2 ack
        ⟨6, .unspec, 0⟩ 0)
        (samplePeer 7 1) := by
  obtain ⟨punch, ack, ack', -, -, -, -, linked, linked'⟩ :=
    link_by_pubuid base64Codec_documented (samplePeer 7 1)
    (samplePeer 9 2) [] (samplePost_request (by decide +kernel) (by decide +kernel))
      (encodes_percentEncode _) sample_resolved
    (Option.some_ne_none _) (by decide) rfl ⟨5, .unspec, 0⟩ ⟨6, .unspec, 0⟩ ⟨5, .unspec, 0⟩ 0 0 0
  exact ⟨punch, ack, ack', linked, linked'⟩

/-- A request for the end of the connection to peer 7. -/
def sampleEnd : UhttpHighRequest where
  nfd := ⟨3, .unspec, 0⟩
  req := {
    method := .post
    path := ascii "/api/peer/disconnect?uid=7"
    headers := []
    body := none
    bodyLen := 0
    contentLength := 0 }

theorem sampleEnd_request : EndRequest sampleEnd 7 [ascii "uid=7"] where
  post := rfl
  asks := ⟨by decide, by decide, List.cons_ne_nil _ _, by decide⟩
  given := ⟨percentEncode (decimal 7), by decide, encodes_percentEncode _⟩
  small := by decide

/-- Peer 9 after it has asked to be connected to peer 7 and a connection was made with it. -/
def sampleConnected : S2Systems :=
  let s := connected (samplePeer 9 2) (Address.ipv4 sampleText 80).naddr 7 (Vector.replicate 32 1)
  { s with conns := estActive s.conns 7 0 }

end Soter2.Cli
