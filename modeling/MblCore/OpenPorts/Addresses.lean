import MblCore.OpenPorts.Netstatutils

/-!
# Addresses on machines of both byte orders

The kernel prints an address word by word, each word as the number that the machine takes its bytes
for.  The functions that read addresses pack the numbers in the order of the machine again.  Here
they depend on this order; on a little-endian machine they are those of `Netstatutils`.
-/

namespace OpenPorts

open Loops

/-! ### Numbers of a machine -/

/-- The order in which a machine stores the bytes of a number. -/
inductive ByteOrder
  | little
  | big
deriving DecidableEq

/-- `struct.pack` in the byte order of the machine, for an unsigned number of four bytes. -/
def ByteOrder.pack : ByteOrder → ℕ → Bytes
  | .little, n => (Struct.bigEndian 4 n).reverse
  | .big, n => Struct.bigEndian 4 n

/-- The number the machine takes some bytes for. -/
def ByteOrder.read : ByteOrder → Bytes → ℕ
  | .little, word => Struct.ofBigEndian word.reverse
  | .big, word => Struct.ofBigEndian word

theorem ByteOrder.read_lt (order : ByteOrder) (word : Bytes) :
  order.read word < 256 ^ word.length
  := by
  cases order with
  | little =>
      rw [← List.length_reverse]
      apply Struct.ofBigEndian_lt _
  | big => exact Struct.ofBigEndian_lt _

/-- The bytes of a word are back in place. -/
theorem ByteOrder.pack_read (order : ByteOrder) {word : Bytes} (h : word.length = 4) :
  order.pack (order.read word) = word
  := by
  cases order with
  | little =>
      have hword := Struct.bigEndian_ofBigEndian word.reverse
      rw [List.length_reverse, h] at hword
      rw [ByteOrder.pack, ByteOrder.read, hword, List.reverse_reverse]
  | big =>
      have hword := Struct.bigEndian_ofBigEndian word
      rwa [h] at hword

/-! ### Reading addresses -/

variable (order : ByteOrder)

/-- `parse_ipv4_address`.  `ip_address` reads the text of `inet_ntop` as the address that was
packed. -/
def parseIpv4AddressOn (ipv4_hex : Text) : Except PyError IPAddress := do
  let ipv4 ← intHex ipv4_hex
  if 0 ≤ ipv4 ∧ ipv4 < 256 ^ 4 then
    return .IPv4Address (order.pack ipv4.toNat)
  else
    throw .structError

/-- `parse_ipv6_address`: the words are unpacked in network byte order, and packed again in that of
the machine. -/
def parseIpv6AddressOn (ipv6_hex : Text) : Except PyError IPAddress := do
  let binary ← decodeHex ipv6_hex
  if binary.length = 16 then
    let unpacked := [binary.take 4, (binary.drop 4).take 4, (binary.drop 8).take 4, binary.drop 12].map
      Struct.ofBigEndian
    return .IPv6Address (unpacked.flatMap order.pack)
  else
    throw .structError

def parseIpv4AddressPortPairOn (raw_address : Text) : Except PyError (IPAddress × Text) :=
  parseAddressPortPair (parseIpv4AddressOn order) raw_address

def parseIpv6AddressPortPairOn (raw_address : Text) : Except PyError (IPAddress × Text) :=
  parseAddressPortPair (parseIpv6AddressOn order) raw_address

theorem parseIpv4AddressOn_little :
  parseIpv4AddressOn .little = parseIpv4Address
  := rfl

theorem parseIpv6AddressOn_little :
  parseIpv6AddressOn .little = parseIpv6Address
  := by
  funext ipv6_hex
  unfold parseIpv6AddressOn parseIpv6Address
  simp [ByteOrder.pack, repack]

/-! ### What the kernel prints -/

/-- A hexadecimal digit. -/
def hexChar (d : Fin 16) : Char :=
  Char.ofNat (if d < 10 then '0'.toNat + d else 'A'.toNat + (d - 10))

/-- The low hexadecimal digits of a number, so many of them. -/
def hexText : ℕ → ℕ → Text
  | 0, _ => []
  | width + 1, n => hexText width (n / 16) ++ [hexChar (Fin.ofNat 16 n)]

/-- An address of the given number of bytes, in network byte order. -/
abbrev Packed (length : ℕ) :=
  { packed : Bytes // packed.length = length }

/-- An entry of `/proc/net/tcp`: the address with format `%08X`, and the port with `%04X`. -/
def kernelIpv4 (address : Packed 4) (port : Fin (2 ^ 16)) : Text :=
  hexText 8 (order.read address) ++ ':' :: hexText 4 port

/-- An entry of `/proc/net/tcp6`: the four words of the address with format `%08X`. -/
def kernelIpv6 (address : Packed 16) (port : Fin (2 ^ 16)) : Text :=
  hexText 8 (order.read (address.val.take 4))
    ++ hexText 8 (order.read ((address.val.drop 4).take 4))
    ++ hexText 8 (order.read ((address.val.drop 8).take 4))
    ++ hexText 8 (order.read (address.val.drop 12)) ++ ':' :: hexText 4 port

/-! ### Reading what the kernel prints -/

variable {order}

theorem hexDigit?_hexChar (d : Fin 16) :
  hexDigit? (hexChar d) = some d.val
  := by
  revert d
  decide

/-- A hexadecimal digit is no white space, and none of the characters that mean something else. -/
theorem hexChar_plain (d : Fin 16) :
  App.isSpace (hexChar d) = false ∧ hexChar d ∉ [':', '_', 'x', 'X', '-', '+']
  := by
  revert d
  decide

theorem mem_hexText {width n : ℕ} {c : Char} (h : c ∈ hexText width n) :
  ∃ d, c = hexChar d
  := by
  induction width generalizing n with
  | zero => exact absurd h List.not_mem_nil
  | succ width ih =>
      rcases List.mem_append.mp h with h | h
      · apply ih h
      · exact ⟨_, List.mem_singleton.mp h⟩

theorem notMem_hexText {width n : ℕ} {c : Char} (hc : c ∈ [':', '_', 'x', 'X', '-', '+']) :
  c ∉ hexText width n
  := by
  intro h
  obtain ⟨d, rfl⟩ := mem_hexText h
  exact (hexChar_plain d).2 hc

/-- The value of the digits, one after the other. -/
theorem foldlM_hexText (width n start : ℕ) :
  (hexText width n).foldlM (fun m c => (hexDigit? c).map (m * 16 + ·)) start
    = some (start * 16 ^ width + n % 16 ^ width)
  := by
  induction width generalizing n with
  | zero => simp [hexText, Nat.mod_one]
  | succ width ih =>
      rw [hexText, List.foldlM_append, ih]
      simp only [Option.bind_eq_bind, Option.bind_some, List.foldlM_cons, List.foldlM_nil,
        hexDigit?_hexChar, Option.map_some, Option.pure_def, Fin.val_ofNat, Option.some.injEq]
      rw [pow_succ, Nat.mul_comm (16 ^ width) 16, Nat.mod_mul, Nat.add_mul, Nat.mul_assoc,
        Nat.mul_comm (16 ^ width) 16]
      omega

/-- `int(text, 16)` of a number that the kernel has printed. -/
theorem intHex?_hexText {width n : ℕ} (hn : n < 16 ^ width) (hwidth : 0 < width) :
  intHex? (hexText width n) = some (n : ℤ)
  := by
  have hspace (c : Char) (hc : c ∈ hexText width n) : App.isSpace c = false := by
    obtain ⟨d, rfl⟩ := mem_hexText hc
    exact (hexChar_plain d).1
  have hsplit : (hexText width n).splitOn '_' = [hexText width n] :=
    List.splitOn_eq_singleton (notMem_hexText (by decide))
  have hnonempty : hexText width n ≠ [] := by
    obtain ⟨width, rfl⟩ := Nat.exists_eq_succ_of_ne_zero hwidth.ne'
    simp [hexText]
  have hdigits : (if ((hexText width n).splitOn '_').all (!·.isEmpty) then
      ((hexText width n).splitOn '_').flatten.foldlM
        (fun m c => (hexDigit? c).map (m * 16 + ·)) 0 else none) = some n := by
    rw [hsplit, if_pos (by simp [hnonempty]), List.flatten_singleton, foldlM_hexText,
      Nat.zero_mul, Nat.zero_add, Nat.mod_eq_of_lt hn]
  -- no character of the text is a sign or belongs to a prefix
  have hplain {c : Char} (hc : c ∈ [':', '_', 'x', 'X', '-', '+']) {t : Text}
      (h : hexText width n = t) : c ∉ t := by
    rintro hmem
    apply notMem_hexText hc (h ▸ hmem)
  unfold intHex?
  rw [App.strip_eq_self hspace]
  split
  · rename_i t heq
    exact absurd List.mem_cons_self (hplain (c := '-') (by decide) heq)
  · rename_i t heq
    exact absurd List.mem_cons_self (hplain (c := '+') (by decide) heq)
  · dsimp only
    split
    · rename_i t heq
      exact absurd (by simp) (hplain (c := 'x') (by decide) heq)
    · rename_i t heq
      exact absurd (by simp) (hplain (c := 'X') (by decide) heq)
    · rename_i t heq
      exact absurd (by simp) (hplain (c := 'x') (by decide) heq)
    · rename_i t heq
      exact absurd (by simp) (hplain (c := 'X') (by decide) heq)
    · rw [hdigits]
      rfl

theorem intHex_hexText {width n : ℕ} (hn : n < 16 ^ width) (hwidth : 0 < width) :
  intHex (hexText width n) = .ok n
  := by
  rw [intHex, intHex?_hexText hn hwidth]

/-- The digits of a number, before other digits, are read as its bytes. -/
theorem decodeHex_hexText (size n : ℕ) {rest : Text} {bytes : Bytes}
    (h : decodeHex rest = .ok bytes) :
  decodeHex (hexText (2 * size) n ++ rest) = .ok (Struct.bigEndian size n ++ bytes)
  := by
  induction size generalizing n rest bytes with
  | zero => exact h
  | succ size ih =>
      have hbyte : UInt8.ofNat (n / 16 % 16 * 16 + n % 16) = UInt8.ofNat n := by
        apply UInt8.toNat_inj.mp
        rw [UInt8.toNat_ofNat', UInt8.toNat_ofNat']
        omega
      have hlast : decodeHex (hexChar (Fin.ofNat 16 (n / 16)) :: hexChar (Fin.ofNat 16 n) :: rest)
          = .ok (UInt8.ofNat n :: bytes) := by
        rw [decodeHex, hexDigit?_hexChar, hexDigit?_hexChar, h, ← hbyte]
        rfl
      have hdiv : n / 16 / 16 = n / 256 := Nat.div_div_eq_div_mul ..
      rw [Nat.mul_succ, hexText, hexText, hdiv, List.append_assoc, List.append_assoc,
        Struct.bigEndian, List.append_assoc]
      apply ih _ hlast

/-- A pair of texts without a colon is split where they are joined. -/
theorem splitOn_colon {host : Text} {width port : ℕ} (h : ':' ∉ host) :
  (host ++ ':' :: hexText width port).splitOn ':' = [host, hexText width port]
  := by
  rw [List.splitOn_append_cons_self_of_not_mem h,
    List.splitOn_eq_singleton (notMem_hexText (by decide))]

theorem hexToDec_hexText {port : ℕ} (hport : port < 2 ^ 16) :
  hexToDec (hexText 4 port) = .ok (Text.decimal port)
  := by
  rw [hexToDec, intHex_hexText (by omega) (by decide)]
  rfl

theorem parseIpv4AddressOn_of_intHex {order : ByteOrder} {text : Text} {n : ℕ}
    (h : intHex text = .ok (n : ℤ)) (hn : n < 256 ^ 4) :
  parseIpv4AddressOn order text = .ok (.IPv4Address (order.pack n))
  := by
  have hfits : (0 : ℤ) ≤ n ∧ (n : ℤ) < 256 ^ 4 := by omega
  exact bind_eq_ok.mpr ⟨n, h, if_pos hfits⟩

theorem parseIpv4AddressOn_hexText (order : ByteOrder) (address : Packed 4) :
  parseIpv4AddressOn order (hexText 8 (order.read address)) = .ok (.IPv4Address address)
  := by
  have hlt := order.read_lt address
  rw [address.property] at hlt
  have hread : intHex (hexText 8 (order.read address)) = .ok (order.read address : ℤ) :=
    intHex_hexText (by omega) (by decide)
  rw [parseIpv4AddressOn_of_intHex hread hlt, order.pack_read address.property]

/-- The words of a byte string that is made of four of them. -/
theorem words_append {word₀ word₁ word₂ : Bytes} (h₀ : word₀.length = 4) (h₁ : word₁.length = 4)
    (h₂ : word₂.length = 4) (word₃ : Bytes) :
  let binary := word₀ ++ (word₁ ++ (word₂ ++ word₃))
  [binary.take 4, (binary.drop 4).take 4, (binary.drop 8).take 4, binary.drop 12]
    = [word₀, word₁, word₂, word₃]
  := by
  intro binary
  have hdrop₁ : binary.drop 4 = word₁ ++ (word₂ ++ word₃) := List.drop_left' h₀
  have hdrop₂ : binary.drop 8 = word₂ ++ word₃ := by
    rw [← List.drop_drop (i := 4) (j := 4), hdrop₁, List.drop_left' h₁]
  have hdrop₃ : binary.drop 12 = word₃ := by
    rw [← List.drop_drop (i := 4) (j := 8), hdrop₂, List.drop_left' h₂]
  rw [hdrop₁, hdrop₂, hdrop₃, List.take_left' h₀, List.take_left' h₁, List.take_left' h₂]

/-- The words of the kernel, unpacked and packed again. -/
theorem parseIpv6AddressOn_hexText (order : ByteOrder) {word₀ word₁ word₂ word₃ : Bytes}
    (h₀ : word₀.length = 4) (h₁ : word₁.length = 4) (h₂ : word₂.length = 4)
    (h₃ : word₃.length = 4) :
  parseIpv6AddressOn order (hexText 8 (order.read word₀) ++ hexText 8 (order.read word₁)
      ++ hexText 8 (order.read word₂) ++ hexText 8 (order.read word₃))
    = .ok (.IPv6Address (word₀ ++ word₁ ++ word₂ ++ word₃))
  := by
  have hbinary : decodeHex (hexText 8 (order.read word₀) ++ hexText 8 (order.read word₁)
      ++ hexText 8 (order.read word₂) ++ hexText 8 (order.read word₃))
      = .ok (Struct.bigEndian 4 (order.read word₀) ++ (Struct.bigEndian 4 (order.read word₁)
        ++ (Struct.bigEndian 4 (order.read word₂) ++ Struct.bigEndian 4 (order.read word₃)))) := by
    have hlast : decodeHex (hexText 8 (order.read word₃) ++ [])
        = .ok (Struct.bigEndian 4 (order.read word₃) ++ []) := decodeHex_hexText 4 _ rfl
    rw [List.append_nil, List.append_nil] at hlast
    rw [List.append_assoc, List.append_assoc]
    apply decodeHex_hexText 4 _ (decodeHex_hexText 4 _ (decodeHex_hexText 4 _ hlast))
  have hrepack {word : Bytes} (h : word.length = 4) :
      order.pack (Struct.ofBigEndian (Struct.bigEndian 4 (order.read word))) = word := by
    have hlt := order.read_lt word
    rw [h] at hlt
    rw [Struct.ofBigEndian_bigEndian hlt, order.pack_read h]
  rw [parseIpv6AddressOn, hbinary]
  dsimp only [bind, Except.bind]
  rw [if_pos (by simp), words_append (by simp) (by simp) (by simp)]
  simp [hrepack, h₀, h₁, h₂, h₃, pure, Except.pure]

/-- On a machine of either byte order, the texts of the kernel are read as the address and the port
that they were printed for. -/
theorem parseAddressPortPairs_kernel (order : ByteOrder) (port : Fin (2 ^ 16)) :
  (∀ address : Packed 4, parseIpv4AddressPortPairOn order (kernelIpv4 order address port)
      = .ok (.IPv4Address address, Text.decimal port))
    ∧ ∀ address : Packed 16, parseIpv6AddressPortPairOn order (kernelIpv6 order address port)
      = .ok (.IPv6Address address, Text.decimal port)
  := by
  have hport := hexToDec_hexText port.isLt
  constructor
  · intro address
    rw [parseIpv4AddressPortPairOn, parseAddressPortPair, kernelIpv4,
      splitOn_colon (notMem_hexText (by decide))]
    dsimp only
    rw [parseIpv4AddressOn_hexText, hport]
    rfl
  · rintro ⟨address, hlength⟩
    have hnoColon (width n : ℕ) : ':' ∉ hexText width n := notMem_hexText (by decide)
    have hwords : address.take 4 ++ (address.drop 4).take 4 ++ (address.drop 8).take 4
        ++ address.drop 12 = address := by
      rw [← List.drop_drop (i := 4) (j := 8), List.append_assoc, List.take_append_drop,
        ← List.drop_drop (i := 4) (j := 4), List.append_assoc, List.take_append_drop,
        List.take_append_drop]
    rw [parseIpv6AddressPortPairOn, parseAddressPortPair, kernelIpv6,
      splitOn_colon (by simp [hnoColon])]
    dsimp only
    rw [parseIpv6AddressOn_hexText order (by simp [hlength]) (by simp [hlength])
      (by simp [hlength]) (by simp [hlength]), hport, hwords]
    rfl

example : kernelIpv4 .little ⟨[127, 0, 0, 1], rfl⟩ 22 = "0100007F:0016".toList := by
  decide +kernel

end OpenPorts
