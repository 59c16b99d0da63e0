import HaasProxy.Config
import HaasProxy.Lib.Json

/-!
# The credential string (`HaasConnect`, `proxy.c`)

What `HaasConnect` hands to the backend as the password: `HaasPassword`, a local
array of 1024 bytes filled by a chain of `sprintf` calls from the client's
password, the configured token and the peer's address.  A token that starts
with `-` selects the bare password instead of the JSON object of
`doc/haas.txt`.

Two questions are settled about it, each with its exact answer.

* **Room.**  Nothing on the way restricts a length, so the chain stays inside
  the array only while the pieces fit (`stores_haasPassword_lt_iff`).
* **Meaning.**  The password and the token are spliced between quotes as they
  are.  The object is read back as the documented members exactly when neither
  of the two holds a quote, a backslash, a control byte or malformed UTF-8
  (`roundTrips_iff`).  Where that fails a client can add members of its own.

## Design notes

"Read back" is by a decoder for JSON texts that was written without looking at what
`HaasConnect` prints (`Lib.Json`).  It keeps repeated members, so that an injected
second `device_token` shows as one.

`RoundTrips` asks for three things at once: the array can hold the text, the text decodes
to the documented members, and no other client, token or peer yields the same text.
The third one does not follow from the second as it stands, since it speaks of texts that
need not decode.  It is proved by counting quotes (`eq_of_tail_eq`).

* The text of a plain credential has a fixed number of quotes, those of the format.
* Any other credential with the same text has at least the quotes of the format, so its
  strings have none of their own.
* Hence both texts are cut at the same quotes, and the strings between them agree.
-/

namespace HaasProxy

open Json

/-- `struct sockaddr_in`, as far as it is printed: the address and the port as
their bytes in network order. -/
structure SockAddrIn where
  /-- `sin_addr`, from the first number of the dotted quad on. -/
  addr : UInt8 × UInt8 × UInt8 × UInt8
  /-- The first byte of `sin_port`. -/
  portHigh : UInt8
  portLow : UInt8
  deriving DecidableEq

/-- `ntohs(Sin->sin_port)`. -/
def SockAddrIn.port (sin : SockAddrIn) : Nat := sin.portHigh.toNat * 256 + sin.portLow.toNat

/-- `inet_ntoa(Sin->sin_addr)`. -/
def inetNtoa (a : UInt8 × UInt8 × UInt8 × UInt8) : List UInt8 :=
  decimal a.1.toNat ++ 0x2E :: (decimal a.2.1.toNat ++ 0x2E ::
    (decimal a.2.2.1.toNat ++ 0x2E :: decimal a.2.2.2.toNat))

/-- Everything `HaasPassword` is built from. -/
structure Credential where
  /-- What the client has offered. -/
  password : CString
  /-- What `-t` was given. -/
  haasToken : CString
  /-- Where the client has connected from. -/
  sin : SockAddrIn
  deriving DecidableEq

/-- `sizeof(HaasPassword)`. -/
def haasPasswordSize : Nat := 1024

/-- `Context->Config->HaasToken[0]!='-'`. -/
def Credential.IsJson (c : Credential) : Prop := c.haasToken.first ≠ 0x2D

instance (c : Credential) : Decidable c.IsJson :=
  inferInstanceAs (Decidable (c.haasToken.first ≠ 0x2D))

/-- `HaasPassword` as `HaasConnect` fills it; `garbage` is what the stack held. -/
def haasPassword (garbage : Nat → UInt8) (c : Credential) : CharBuffer :=
  let buf := CharBuffer.uninit garbage
  if c.IsJson then
    let buf := buf.sprintf (ascii "\x7b")
    let buf := buf.sprintf (ascii " \"pass\": \"" ++ c.password.bytes ++ ascii "\",")
    let buf := buf.sprintf (ascii " \"device_token\": \"" ++ c.haasToken.bytes ++ ascii "\",")
    let buf := buf.sprintf (ascii " \"remote\": \"" ++ inetNtoa c.sin.addr ++ ascii "\",")
    let buf := buf.sprintf (ascii " \"remote_port\": \"" ++ decimal c.sin.port ++ ascii "\"")
    buf.sprintf (ascii " \x7d")
  else
    buf.sprintf c.password.bytes

/-- The string `HaasPassword` holds when it is passed on, if the array could
hold it. -/
def haasPasswordText (garbage : Nat → UInt8) (c : Credential) : Option (List UInt8) :=
  (haasPassword garbage c).string? haasPasswordSize

/-! ## The pieces -/

/-- What the `sprintf` calls print, one entry a call. -/
def Credential.pieces (c : Credential) : List (List UInt8) :=
  if c.IsJson then
    [ascii "\x7b",
      ascii " \"pass\": \"" ++ c.password.bytes ++ ascii "\",",
      ascii " \"device_token\": \"" ++ c.haasToken.bytes ++ ascii "\",",
      ascii " \"remote\": \"" ++ inetNtoa c.sin.addr ++ ascii "\",",
      ascii " \"remote_port\": \"" ++ decimal c.sin.port ++ ascii "\"",
      ascii " \x7d"]
  else [c.password.bytes]

/-- The chain of `sprintf` writes the pieces one after another, with a token or without. -/
theorem haasPassword_eq_sprintfs (garbage : Nat → UInt8) (c : Credential) :
    haasPassword garbage c = (CharBuffer.uninit garbage).sprintfs c.pieces := by
  unfold haasPassword Credential.pieces
  split <;> rfl

theorem pieces_ne_nil (c : Credential) : c.pieces ≠ [] := by
  unfold Credential.pieces
  split <;> simp

/-- Number of bytes the calls print, without the final NUL. -/
def Credential.textLength (c : Credential) : Nat :=
  if c.IsJson then
    67 + c.password.bytes.length + c.haasToken.bytes.length + (inetNtoa c.sin.addr).length +
      (decimal c.sin.port).length
  else c.password.bytes.length

/-- The length of the text, as the sum that `textLength` says. -/
theorem length_flatten_pieces (c : Credential) : c.pieces.flatten.length = c.textLength := by
  unfold Credential.pieces Credential.textLength
  split
  · simp [ascii]
    omega
  · simp

/-! ## Room

The text and its NUL, against the array.  Nothing else is stored, and every store counts,
also those that later calls overwrite. -/

/-- **Where `HaasConnect` stores.** Every store of the chain lands inside `HaasPassword`
exactly when the text is shorter than the array: `sprintf` stores the text and a NUL
behind it, and nothing tells it where the array ends. The stores are those of all the
`sprintf`s, in order, so it does not help that an earlier one was in range. -/
theorem stores_haasPassword_lt_iff (garbage : Nat → UInt8) (c : Credential) :
    (∀ i ∈ (haasPassword garbage c).stores, i < haasPasswordSize) ↔
      c.textLength < haasPasswordSize := by
  rw [haasPassword_eq_sprintfs, CharBuffer.stores_sprintfs_lt_iff (pieces_ne_nil c),
    length_flatten_pieces]

/-- A password of 1024 bytes, against any token. -/
def longPassword : Credential where
  password := ⟨List.replicate 1024 0x61, fun h => absurd (List.eq_of_mem_replicate h) (by decide)⟩
  haasToken := ⟨ascii "token", by decide⟩
  sin := ⟨(192, 0, 2, 7), 0x10, 0x92⟩

/-- The array is overrun by the client alone. -/
theorem longPassword_overruns :
    ¬ ∀ i ∈ (haasPassword (fun _ => 0) longPassword).stores, i < haasPasswordSize := by
  rw [haasPassword_eq_sprintfs, CharBuffer.stores_sprintfs_lt_iff (pieces_ne_nil _),
    length_flatten_pieces]
  have length : 1024 ≤ longPassword.textLength := by
    have json : longPassword.IsJson := by decide
    have password : longPassword.password.bytes.length = 1024 := List.length_replicate
    rw [Credential.textLength, if_pos json, password]
    omega
  exact Nat.not_lt.mpr length

/-! ## Meaning -/

/-- The members `doc/haas.txt` documents. -/
def Credential.members (c : Credential) : List (List UInt8 × Value) :=
  [(ascii "pass", .str c.password.bytes),
    (ascii "device_token", .str c.haasToken.bytes),
    (ascii "remote", .str (inetNtoa c.sin.addr)),
    (ascii "remote_port", .str (decimal c.sin.port))]

/-- **The credential is understood**: `HaasPassword` holds a text, the text is a
JSON object with the documented members, each once, and no other client, token
or peer yields the same text. -/
structure Credential.RoundTrips (garbage : Nat → UInt8) (c : Credential) : Prop where
  /-- The text means what the credential is. -/
  decodes : ∃ text, haasPasswordText garbage c = some text ∧
    decode text = some (.obj c.members)
  /-- No other credential has the same text. -/
  unambiguous : ∀ c' : Credential, c'.IsJson →
    haasPasswordText garbage c' = haasPasswordText garbage c → c' = c

/-- A string that may stand between JSON quotes as it is. -/
structure Spliceable (s : CString) : Prop where
  /-- No quote, no backslash, no control character. -/
  plain : ∀ b ∈ s.bytes, PlainByte b
  /-- The text around it stays UTF-8. -/
  utf8 : utf8Valid s.bytes = true

instance (s : CString) : Decidable (Spliceable s) :=
  have : Decidable (∀ b ∈ s.bytes, PlainByte b) := List.decidableBAll PlainByte s.bytes
  decidable_of_iff ((∀ b ∈ s.bytes, PlainByte b) ∧ utf8Valid s.bytes = true)
    ⟨fun h => ⟨h.1, h.2⟩, fun h => ⟨h.plain, h.utf8⟩⟩

/-- What stands behind the opening quote of the password. -/
def Credential.tail (c : Credential) : List UInt8 :=
  c.password.bytes ++ 0x22 :: 0x2C :: 0x20 :: 0x22 :: (ascii "device_token" ++
    0x22 :: 0x3A :: 0x20 :: 0x22 :: (c.haasToken.bytes ++
      0x22 :: 0x2C :: 0x20 :: 0x22 :: (ascii "remote" ++
        0x22 :: 0x3A :: 0x20 :: 0x22 :: (inetNtoa c.sin.addr ++
          0x22 :: 0x2C :: 0x20 :: 0x22 :: (ascii "remote_port" ++
            0x22 :: 0x3A :: 0x20 :: 0x22 :: (decimal c.sin.port ++
              0x22 :: 0x20 :: 0x7D :: []))))))

/-- The text of the object, up to the value of its first member. What follows is its
tail. -/
theorem flatten_pieces {c : Credential} (json : c.IsJson) :
    c.pieces.flatten =
      0x7B :: 0x20 :: 0x22 :: (ascii "pass" ++ 0x22 :: 0x3A :: 0x20 :: 0x22 :: c.tail) := by
  simp [Credential.pieces, if_pos json, Credential.tail, ascii]

/-! ### The pieces the code formats itself

The address and the port are printed from numbers.  Their texts are plain, whatever the
numbers are, so only the password and the token can go wrong. -/

private theorem plainByte_of_digit {b : UInt8} (h : 0x30 ≤ b ∧ b ≤ 0x39) :
    PlainByte b ∧ b < 0x80 := by
  have low := UInt8.le_iff_toNat_le.mp h.1
  have high := UInt8.le_iff_toNat_le.mp h.2
  refine ⟨⟨?_, ?_, ?_⟩, ?_⟩
  · rintro rfl; exact absurd low (by decide)
  · rintro rfl; exact absurd high (by decide)
  · exact UInt8.le_trans (by decide) h.1
  · exact UInt8.lt_of_le_of_lt h.2 (by decide)

theorem plainByte_of_mem_decimal {n : Nat} {b : UInt8} (h : b ∈ decimal n) :
    PlainByte b ∧ b < 0x80 :=
  plainByte_of_digit (digit_of_mem_decimal h)

theorem plainByte_of_mem_inetNtoa {a : UInt8 × UInt8 × UInt8 × UInt8} {b : UInt8}
    (h : b ∈ inetNtoa a) : PlainByte b ∧ b < 0x80 := by
  have dot : PlainByte 0x2E ∧ (0x2E : UInt8) < 0x80 := by decide
  simp only [inetNtoa, List.mem_append, List.mem_cons] at h
  rcases h with h | rfl | h | rfl | h | rfl | h
  all_goals first | exact dot | exact plainByte_of_mem_decimal h

theorem dot_not_mem_decimal (n : Nat) : 0x2E ∉ decimal n := fun h =>
  absurd (digit_of_mem_decimal h) (by decide)

/-- Hence two addresses with the same text are the same: the dots tell the four numbers
apart. -/
private theorem inetNtoa_injective : Function.Injective inetNtoa := by
  rintro ⟨a, b, c, d⟩ ⟨a', b', c', d'⟩ h
  have octet : ∀ {x y : UInt8}, decimal x.toNat = decimal y.toNat → x = y :=
    fun h => UInt8.toNat_inj.mp (decimal_injective h)
  simp only [inetNtoa] at h
  obtain ⟨ha, h⟩ := eq_of_append_sep_eq (dot_not_mem_decimal _) (dot_not_mem_decimal _) h
  obtain ⟨hb, h⟩ := eq_of_append_sep_eq (dot_not_mem_decimal _) (dot_not_mem_decimal _) h
  obtain ⟨hc, hd⟩ := eq_of_append_sep_eq (dot_not_mem_decimal _) (dot_not_mem_decimal _) h
  rw [octet ha, octet hb, octet hc, octet hd]

private theorem sockAddrIn_eq {sin sin' : SockAddrIn} (addr : sin.addr = sin'.addr)
    (port : sin.port = sin'.port) : sin = sin' := by
  obtain ⟨a, h, l⟩ := sin
  obtain ⟨a', h', l'⟩ := sin'
  have low := l.toNat_lt
  have low' := l'.toNat_lt
  simp only [SockAddrIn.port] at addr port
  have high : h = h' := UInt8.toNat_inj.mp (by omega)
  have low : l = l' := UInt8.toNat_inj.mp (by subst high; omega)
  rw [addr, high, low]

/-! ### The text as a text

What `haasPassword` has written is a C string only if no piece of it contains a NUL; and
it is a JSON text as long as the pieces leave the string literals they stand in closed. -/

/-- There is no zero byte in the text, so its length is what was written. -/
private theorem nul_not_mem_pieces (c : Credential) : 0 ∉ c.pieces.flatten := by
  have plain : ∀ {b : UInt8}, PlainByte b ∧ b < 0x80 → b ≠ 0 := by
    rintro b ⟨h, -⟩ rfl
    exact absurd h (by decide)
  have addr : (0 : UInt8) ∉ inetNtoa c.sin.addr := fun h => plain (plainByte_of_mem_inetNtoa h) rfl
  have port : (0 : UInt8) ∉ decimal c.sin.port := fun h => plain (plainByte_of_mem_decimal h) rfl
  unfold Credential.pieces
  split
  · simp [ascii, c.password.nulFree, c.haasToken.nulFree, addr, port]
  · simpa using c.password.nulFree

/-- What the backend is offered: the whole text if the array has room for it and for the
zero byte behind it. -/
theorem haasPasswordText_eq (garbage : Nat → UInt8) (c : Credential) :
    haasPasswordText garbage c =
      if c.textLength < haasPasswordSize then some c.pieces.flatten else none := by
  rw [haasPasswordText, haasPassword_eq_sprintfs,
    CharBuffer.string?_sprintfs (pieces_ne_nil c) (nul_not_mem_pieces c), length_flatten_pieces]

/-- The text is UTF-8 exactly when what is spliced in is. -/
private theorem utf8Valid_tail (c : Credential) :
    utf8Valid c.tail = (utf8Valid c.password.bytes && utf8Valid c.haasToken.bytes) := by
  have addr : utf8Valid (inetNtoa c.sin.addr) = true :=
    utf8Valid_of_ascii fun b hb => (plainByte_of_mem_inetNtoa hb).2
  have port : utf8Valid (decimal c.sin.port) = true :=
    utf8Valid_of_ascii fun b hb => (plainByte_of_mem_decimal hb).2
  have close : utf8Valid [0x20, 0x7D] = true := by decide
  rw [Credential.tail, utf8Valid_append_member (by decide +kernel),
    utf8Valid_append_member (by decide +kernel), utf8Valid_append_member (by decide +kernel),
    utf8Valid_append_ascii (by decide +kernel), addr, port, close]
  simp

/-- Decoding begins with the first member; all that can fail before is the encoding of
the two texts. -/
theorem decode_text {c : Credential} (json : c.IsJson) :
    decode c.pieces.flatten =
      if utf8Valid c.password.bytes && utf8Valid c.haasToken.bytes then
        (members (c.tail.length + 11)
            (0x22 :: (ascii "pass" ++ 0x22 :: 0x3A :: 0x20 :: 0x22 :: c.tail))).bind fun ms =>
          if skipWs ms.2 = [] then some (.obj ms.1) else none
      else none := by
  have length : (ascii "pass" ++ 0x22 :: 0x3A :: 0x20 :: 0x22 :: c.tail).length + 3 =
      c.tail.length + 11 := by
    simp [ascii]
  have utf8 : utf8Valid (0x22 :: (ascii "pass" ++ 0x22 :: 0x3A :: 0x20 :: 0x22 :: c.tail)) =
      utf8Valid c.tail :=
    utf8Valid_ascii_append
      (show ∀ b ∈ 0x22 :: (ascii "pass" ++ [0x22, 0x3A, 0x20, 0x22]), b < 0x80 by decide +kernel) c.tail
  rw [flatten_pieces json, decode_obj, length, utf8, utf8Valid_tail]

/-- The longest member name. -/
theorem length_names : (ascii "pass").length ≤ 12 ∧ (ascii "device_token").length ≤ 12 ∧
    (ascii "remote").length ≤ 12 ∧ (ascii "remote_port").length ≤ 12 := by decide

/-- The tail is long enough for all its members, so the decoder's fuel is. -/
theorem length_lt_tail (c : Credential) :
    c.password.bytes.length + 12 < c.tail.length ∧ c.haasToken.bytes.length + 12 < c.tail.length ∧
      (inetNtoa c.sin.addr).length + 12 < c.tail.length ∧
      (decimal c.sin.port).length + 12 < c.tail.length := by
  have name : (ascii "device_token").length = 12 := rfl
  simp only [Credential.tail, List.length_append, List.length_cons, name]
  omega

/-- With plain strings the text is read back as the documented members. -/
theorem decode_of_spliceable {c : Credential} (json : c.IsJson) (password : Spliceable c.password)
    (token : Spliceable c.haasToken) : decode c.pieces.flatten = some (.obj c.members) := by
  obtain ⟨lenPassword, lenToken, lenAddr, lenPort⟩ := length_lt_tail c
  have names := length_names
  have addr : ∀ b ∈ inetNtoa c.sin.addr, PlainByte b := fun b hb => (plainByte_of_mem_inetNtoa hb).1
  have port : ∀ b ∈ decimal c.sin.port, PlainByte b := fun b hb => (plainByte_of_mem_decimal hb).1
  rw [decode_text json, password.utf8, token.utf8]
  generalize hn : c.tail.length = n at *
  rw [Credential.tail,
    members_str_comma (n := n + 9) (by decide +kernel) password.plain (by omega) (by omega),
    members_str_comma (n := n + 8) (by decide +kernel) token.plain (by omega) (by omega),
    members_str_comma (n := n + 7) (by decide +kernel) addr (by omega) (by omega),
    members_str_close (n := n + 6) (by decide +kernel) port (by omega) (by omega)]
  rfl

/-- Strings that are read back as they were are plain. -/
theorem spliceable_of_decode {c : Credential} (json : c.IsJson)
    (h : decode c.pieces.flatten = some (.obj c.members)) :
    Spliceable c.password ∧ Spliceable c.haasToken := by
  obtain ⟨lenPassword, -, -, -⟩ := length_lt_tail c
  have names := length_names
  rw [decode_text json] at h
  split_ifs at h with utf8
  rw [Bool.and_eq_true] at utf8
  rw [Option.bind_eq_some_iff] at h
  obtain ⟨⟨ms, rest⟩, hmembers, h⟩ := h
  obtain rfl : ms = c.members := by
    split_ifs at h
    exact Value.obj.inj (Option.some.inj h)
  generalize hn : c.tail.length = n at *
  rw [Credential.tail] at hmembers
  have password := plain_of_members (n := n + 9) (by decide +kernel) (by omega) hmembers
  -- the password is as it was, so the token's member is where it was put
  rw [members_str_comma (n := n + 9) (by decide +kernel) password (by omega) (by omega),
    Option.map_eq_some_iff] at hmembers
  obtain ⟨⟨ms, rest'⟩, htoken, heq⟩ := hmembers
  obtain rfl : ms = c.members.tail := (List.cons.inj (Prod.mk.inj heq).1).2
  have token := plain_of_members (n := n + 8) (by decide +kernel) (by omega) htoken
  exact ⟨⟨password, utf8.1⟩, ⟨token, utf8.2⟩⟩

/-! ### No second reading

Two credentials with one text are the same credential, if one of them is plain. -/

/-- There is no quote in a text that stands for itself. -/
theorem count_quote_of_plain {s : List UInt8} (plain : ∀ b ∈ s, PlainByte b) :
    s.count 0x22 = 0 :=
  List.count_eq_zero.mpr fun h => (plain _ h).1 rfl

/-- Behind the first member name stand the quotes of the format and those of
the two strings. -/
theorem count_quote_tail (c : Credential) :
    c.tail.count 0x22 =
      13 + c.password.bytes.count 0x22 + c.haasToken.bytes.count 0x22 := by
  have addr := count_quote_of_plain fun b hb => (plainByte_of_mem_inetNtoa (a := c.sin.addr) hb).1
  have port := count_quote_of_plain fun b hb => (plainByte_of_mem_decimal (n := c.sin.port) hb).1
  have names : (ascii "device_token").count 0x22 = 0 ∧ (ascii "remote").count 0x22 = 0 ∧
      (ascii "remote_port").count 0x22 = 0 := by decide
  obtain ⟨hdevice, hremote, hport⟩ := names
  simp only [Credential.tail, List.count_append, List.count_cons, List.count_nil, addr, port,
    hdevice, hremote, hport]
  simp
  omega

/-- **Equal texts, equal credentials**, as soon as one of the two is plain: the
number of quotes says that the other one has none of its own either, and then
the quotes of the format cut both texts at the same places. -/
private theorem eq_of_tail_eq {c c' : Credential} (password : Spliceable c.password)
    (token : Spliceable c.haasToken) (h : c'.tail = c.tail) : c' = c := by
  have quotes := congrArg (List.count 0x22) h
  rw [count_quote_tail, count_quote_tail, count_quote_of_plain password.plain,
    count_quote_of_plain token.plain] at quotes
  have noQuote : ∀ {s : List UInt8}, s.count 0x22 = 0 → 0x22 ∉ s := List.count_eq_zero.mp
  have addr : ∀ c : Credential, 0x22 ∉ inetNtoa c.sin.addr := fun c hb =>
    (plainByte_of_mem_inetNtoa hb).1.1 rfl
  have port : ∀ c : Credential, 0x22 ∉ decimal c.sin.port := fun c hb =>
    (plainByte_of_mem_decimal hb).1.1 rfl
  simp only [Credential.tail] at h
  obtain ⟨hpassword, h⟩ := eq_of_append_sep_eq (noQuote (by omega))
    (noQuote (count_quote_of_plain password.plain)) h
  simp only [List.cons.injEq, List.append_cancel_left_eq, true_and] at h
  obtain ⟨htoken, h⟩ := eq_of_append_sep_eq (noQuote (by omega))
    (noQuote (count_quote_of_plain token.plain)) h
  simp only [List.cons.injEq, List.append_cancel_left_eq, true_and] at h
  obtain ⟨haddr, h⟩ := eq_of_append_sep_eq (addr c') (addr c) h
  simp only [List.cons.injEq, List.append_cancel_left_eq, true_and] at h
  obtain ⟨hport, -⟩ := eq_of_append_sep_eq (port c') (port c) h
  calc c' = ⟨c'.password, c'.haasToken, c'.sin⟩ := rfl
    _ = ⟨c.password, c.haasToken, c.sin⟩ := by
        rw [CString.ext hpassword, CString.ext htoken,
          sockAddrIn_eq (inetNtoa_injective haddr) (decimal_injective hport)]

/-- **When the credential is understood.**  The object is read back as the
documented members, and only this credential yields it, exactly when the text
fits the array and neither the password nor the token holds a quote, a
backslash, a control byte or malformed UTF-8. -/
theorem roundTrips_iff (garbage : Nat → UInt8) {c : Credential} (json : c.IsJson) :
    c.RoundTrips garbage ↔
      c.textLength < haasPasswordSize ∧ Spliceable c.password ∧ Spliceable c.haasToken := by
  constructor
  · rintro ⟨⟨text, htext, hdecode⟩, -⟩
    rw [haasPasswordText_eq] at htext
    split_ifs at htext with fits
    obtain rfl := Option.some.inj htext
    exact ⟨fits, spliceable_of_decode json hdecode⟩
  · rintro ⟨fits, password, token⟩
    refine ⟨⟨_, by rw [haasPasswordText_eq, if_pos fits], decode_of_spliceable json password token⟩,
      fun c' json' h => eq_of_tail_eq password token ?_⟩
    rw [haasPasswordText_eq, haasPasswordText_eq, if_pos fits] at h
    split_ifs at h
    have texts := Option.some.inj h
    rw [flatten_pieces json, flatten_pieces json'] at texts
    simpa using texts

/-- An ordinary login. -/
def plainLogin : Credential where
  password := ⟨ascii "123456", by decide⟩
  haasToken := ⟨ascii "token", by decide⟩
  sin := ⟨(192, 0, 2, 7), 0x10, 0x92⟩

/-- The conditions can be met: an ordinary login. -/
theorem roundTrips_plainLogin : plainLogin.RoundTrips fun _ => 0 :=
  (roundTrips_iff (fun _ => 0) (show plainLogin.IsJson by decide)).mpr (by decide +kernel)

/-- A password that closes its own string and goes on with a member. -/
def injectingLogin : Credential :=
  { plainLogin with password := ⟨ascii "x\", \"device_token\": \"forged", by decide⟩ }

/-- **A password with a quote** adds a member of its own to the object, and is not read
back. -/
theorem injectingLogin_not_roundTrips : ¬ injectingLogin.RoundTrips fun _ => 0 := by
  rintro ⟨⟨text, htext, hdecode⟩, -⟩
  rw [haasPasswordText_eq] at htext
  split_ifs at htext
  obtain rfl := Option.some.inj htext
  have quote : ¬ Spliceable injectingLogin.password := by decide
  exact quote (spliceable_of_decode (by decide) hdecode).1

end HaasProxy
