import Simulith.Driver.Contract

/-!
# Reading the UART ring

`UartPort.unread` reads the receive buffer as the list of bytes from
`rx_buffer_tail` up to `rx_buffer_head`. Receiving takes bytes off the front
of that list (`receive_eq`), so taking some and then more is taking them at
once (`uart_ring`). The positions are those of any port, not only of a
reachable one: no call of the driver moves the head.
-/

namespace Simulith

instance : NeZero uartRxSize := ⟨by decide⟩

namespace UartPort

/-- The bytes waiting to be read, oldest first. -/
def unread (port : UartPort) : List UInt8 :=
  Ring.contents port.rxBuffer port.rxBufferHead.toNat port.rxBufferTail.toNat

/-- Both positions lie in the buffer. -/
structure Indexed (port : UartPort) : Prop where
  head_lt : port.rxBufferHead.toNat < uartRxSize
  tail_lt : port.rxBufferTail.toNat < uartRxSize

/-- The port with `k` bytes read. -/
def advance (port : UartPort) (k : Nat) : UartPort :=
  { port with rxBufferTail := UInt64.ofNat ((port.rxBufferTail.toNat + k) % uartRxSize) }

variable {port : UartPort} {data : List UInt8} {maxLen : UInt64} {k l : Nat}

theorem toNat_advance : (port.advance k).rxBufferTail.toNat =
    (port.rxBufferTail.toNat + k) % uartRxSize := by
  have hlt : (port.rxBufferTail.toNat + k) % uartRxSize < uartRxSize := Nat.mod_lt _ (by decide)
  refine Nat.mod_eq_of_lt (Nat.lt_trans hlt (by decide))

theorem advance_advance : (port.advance k).advance l = port.advance (k + l) := by
  have htail : ((port.advance k).rxBufferTail.toNat + l) % uartRxSize =
      (port.rxBufferTail.toNat + (k + l)) % uartRxSize := by
    rw [toNat_advance, Nat.mod_add_mod, Nat.add_assoc]
  unfold advance at htail ⊢
  rw [htail]

/-- The difference wraps modulo 2^64, which 1024 divides. -/
theorem wrapped_sub_mod {head tail : Nat} (hh : head < 1024) (ht : tail < 1024) :
    (2 ^ 64 - tail + head) % 2 ^ 64 % 1024 = Ring.count 1024 head tail := by
  unfold Ring.count
  split <;> omega

namespace Indexed

theorem advance (hp : port.Indexed) (k : Nat) : (port.advance k).Indexed := by
  refine ⟨hp.head_lt, ?_⟩
  rw [toNat_advance]
  exact Nat.mod_lt _ (by decide)

theorem length_unread (hp : port.Indexed) : port.bytesAvailable.toNat = port.unread.length := by
  rw [unread, Ring.length_contents, bytesAvailable, UInt64.toNat_mod, UInt64.toNat_sub]
  exact wrapped_sub_mod hp.head_lt hp.tail_lt

theorem length_unread_lt (hp : port.Indexed) : port.unread.length < 1024 := by
  rw [← hp.length_unread]
  exact port.bytesAvailable_lt

theorem unread_advance (hp : port.Indexed) (hk : k ≤ port.unread.length) :
    (port.advance k).unread = port.unread.drop k := by
  rw [unread, Ring.length_contents] at hk
  rw [unread, toNat_advance]
  exact Ring.contents_drop hp.head_lt hp.tail_lt hk

theorem advance_zero (hp : port.Indexed) : port.advance 0 = port := by
  unfold UartPort.advance
  rw [Nat.add_zero, Nat.mod_eq_of_lt hp.tail_lt, UInt64.ofNat_toNat]

theorem unread_eq_nil_iff (hp : port.Indexed) :
    port.unread = [] ↔ port.rxBufferHead.toNat = port.rxBufferTail.toNat :=
  Ring.contents_eq_nil_iff hp.tail_lt

theorem unread_eq_cons (hp : port.Indexed) (h : 0 < port.unread.length) :
    port.unread = port.rxBuffer ⟨port.rxBufferTail.toNat, hp.tail_lt⟩ ::
      (port.advance 1).unread := by
  have hne : port.rxBufferHead.toNat ≠ port.rxBufferTail.toNat := by
    intro he
    rw [hp.unread_eq_nil_iff.mpr he] at h
    exact absurd h (Nat.lt_irrefl 0)
  unfold unread
  rw [toNat_advance]
  exact Ring.contents_pop hp.head_lt hp.tail_lt hne

end Indexed

/-! ## The copy loop -/

theorem take_set_succ {i : Nat} {b : UInt8} (h : i < data.length) :
    (data.set i b).take (i + 1) = data.take i ++ [b] := by
  rw [List.take_add_one, List.take_set_of_le (Nat.le_refl i), List.getElem?_set_self h]
  rfl

/-- The loop copies the next `n` bytes behind the first `i`, and touches nothing else. -/
theorem copyOut_eq {n i : Nat} (hp : port.Indexed) (hn : n ≤ port.unread.length)
    (hroom : i + n ≤ data.length) :
    copyOut n i data port =
      some (data.take i ++ (port.unread.take n ++ data.drop (i + n)), port.advance n) := by
  induction n generalizing i data port with
  | zero =>
    rw [hp.advance_zero, List.take_zero, List.nil_append, Nat.add_zero, List.take_append_drop]
    rfl
  | succ n ih =>
    have hcons := hp.unread_eq_cons (by omega)
    have hstep : ({ port with rxBufferTail := (port.rxBufferTail + 1) % 1024 } : UartPort) =
        port.advance 1 := by
      have htail : (port.rxBufferTail + 1) % 1024 = (port.advance 1).rxBufferTail := by
        apply UInt64.toNat_inj.mp
        have hlt : port.rxBufferTail.toNat < 1024 := hp.tail_lt
        rw [toNat_advance, UInt64.toNat_mod, UInt64.toNat_add]
        change (port.rxBufferTail.toNat + 1) % 2 ^ 64 % 1024 = (port.rxBufferTail.toNat + 1) % 1024
        omega
      rw [htail]
      rfl
    have hlen : (port.advance 1).unread.length + 1 = port.unread.length := by
      rw [hcons, List.length_cons]
    rw [copyOut, Ring.load_of_lt hp.tail_lt]
    refine (congrArg _ hstep).trans ((ih (hp.advance 1) (by omega) ?_).trans ?_)
    · rw [List.length_set]
      omega
    · rw [take_set_succ (by omega), List.drop_set_of_lt (by omega), advance_advance,
        Nat.add_comm 1 n, hcons, List.take_succ_cons, List.append_assoc, Nat.add_assoc,
        Nat.add_comm 1 n]
      rfl

/-! ## The calls -/

/-- How many bytes a receive of at most `maxLen` takes. -/
def taken (port : UartPort) (maxLen : UInt64) : Nat := min port.unread.length maxLen.toNat

theorem available_eq (hp : port.Indexed) (hopen : port.initialized = true) :
    port.available = some (port, .plain port.unread.length .absent) := by
  rw [available, hopen, toInt_of_lt port.bytesAvailable_lt, hp.length_unread]
  rfl

theorem Indexed.toNat_toRead (hp : port.Indexed) :
    (if port.bytesAvailable < maxLen then port.bytesAvailable else maxLen).toNat =
      port.taken maxLen := by
  have hlen := hp.length_unread
  unfold taken
  split
  · next hlt =>
    rw [UInt64.lt_iff_toNat_lt] at hlt
    omega
  · next hle =>
    rw [UInt64.lt_iff_toNat_lt] at hle
    omega

/-- Receive hands out the oldest bytes and takes them off the list. -/
theorem receive_eq (hp : port.Indexed) (hopen : port.initialized = true) (hmax : 1 ≤ maxLen)
    (hroom : port.taken maxLen ≤ data.length) :
    port.receive (some data) maxLen = some (port.advance (port.taken maxLen),
      .plain (port.taken maxLen)
        (.bytes (port.unread.take (port.taken maxLen) ++ data.drop (port.taken maxLen)))) := by
  have hne : (maxLen == 0) = false := by
    rw [beq_eq_false_iff_ne]
    rintro rfl
    exact absurd hmax (by decide)
  have hread : (if port.bytesAvailable < maxLen then port.bytesAvailable else maxLen).toNat =
      port.taken maxLen := hp.toNat_toRead
  have hle : port.taken maxLen ≤ port.unread.length := Nat.min_le_left _ _
  have hlt := hp.length_unread_lt
  have hcopy : copyOut (port.taken maxLen) 0 data port = _ := copyOut_eq hp hle (by omega)
  rw [List.take_zero, List.nil_append, Nat.zero_add] at hcopy
  simp only [receive, hopen, hne, Bool.not_true, Option.isNone_some, Bool.or_false,
    Bool.false_eq_true, if_false]
  rw [toInt_of_lt (by omega), hread]
  simp only [Option.bind_eq_bind, Option.bind_some, hcopy]

end UartPort

variable {ports : UartPorts} {j : Fin maxUartPorts} {portId : UInt8} {data : List UInt8}
  {maxLen : UInt64}

theorem simulithUartReceive_eq (hid : unitIndex maxUartPorts portId = some j)
    (hp : (ports j).Indexed) (hopen : (ports j).initialized = true) (hmax : 1 ≤ maxLen)
    (hroom : (ports j).taken maxLen ≤ data.length) :
    simulithUartReceive portId ports (some data) maxLen =
      some (Function.update ports j ((ports j).advance ((ports j).taken maxLen)),
        .plain ((ports j).taken maxLen) (.bytes ((ports j).unread.take ((ports j).taken maxLen) ++
          data.drop ((ports j).taken maxLen)))) := by
  rw [simulithUartReceive, hid]
  exact access_eq (UartPort.receive_eq hp hopen hmax hroom)

namespace UartPort

variable {port : UartPort} {m n : UInt64} {data₁ data₂ : List UInt8}

theorem length_take_taken (port : UartPort) (maxLen : UInt64) :
    (port.unread.take (port.taken maxLen)).length = port.taken maxLen :=
  List.length_take_of_le (Nat.min_le_left _ _)

namespace Indexed

theorem length_advance (hp : port.Indexed) :
    (port.advance (port.taken m)).unread.length = port.unread.length - port.taken m := by
  have hle : port.taken m ≤ port.unread.length := Nat.min_le_left _ _
  rw [hp.unread_advance hle, List.length_drop]

theorem taken_add (hp : port.Indexed) (hmn : m.toNat + n.toNat < 2 ^ 64) :
    port.taken (m + n) = port.taken m + (port.advance (port.taken m)).taken n := by
  have hlen := hp.length_advance (m := m)
  have hsum : (m + n).toNat = m.toNat + n.toNat := by
    rw [UInt64.toNat_add, Nat.mod_eq_of_lt hmn]
  unfold taken at hlen ⊢
  rw [hlen, hsum]
  omega

theorem taken_advance_le (hp : port.Indexed) :
    (port.advance (port.taken m)).taken n ≤ port.taken n := by
  have hlen := hp.length_advance (m := m)
  unfold taken at hlen ⊢
  rw [hlen]
  omega

/-- One receive of `m + n` bytes hands out what a receive of `m` and one of `n` do. -/
theorem receive_add (hp : port.Indexed) (hopen : port.initialized = true) (hm : 1 ≤ m)
    (hmn : m.toNat + n.toNat < 2 ^ 64) (hroom : port.taken (m + n) ≤ data.length) :
    port.receive (some data) (m + n) =
      some ((port.advance (port.taken m)).advance ((port.advance (port.taken m)).taken n),
        .plain (port.taken (m + n)) (.bytes (port.unread.take (port.taken m) ++
          (port.advance (port.taken m)).unread.take ((port.advance (port.taken m)).taken n) ++
          data.drop (port.taken (m + n))))) := by
  have hle : port.taken m ≤ port.unread.length := Nat.min_le_left _ _
  have hone : 1 ≤ m + n := by
    rw [UInt64.le_iff_toNat_le, UInt64.toNat_add, Nat.mod_eq_of_lt hmn]
    exact Nat.le_add_right_of_le (UInt64.le_iff_toNat_le.mp hm)
  rw [receive_eq hp hopen hone hroom, hp.unread_advance hle, advance_advance, ← List.take_add,
    ← hp.taken_add hmn]

end Indexed

end UartPort

theorem simulithUartReceive_twice (hid : unitIndex maxUartPorts portId = some j)
    (hp : (ports j).Indexed) (hopen : (ports j).initialized = true) {m n : UInt64}
    {data₁ data₂ : List UInt8} (hm : 1 ≤ m) (hn : 1 ≤ n) (hmn : m.toNat + n.toNat < 2 ^ 64)
    (h₁ : (ports j).taken m ≤ data₁.length) (h₂ : (ports j).taken n ≤ data₂.length)
    (h : (ports j).taken (m + n) ≤ data.length) :
    ∃ ports₁ ports₂ got₁ got₂,
      simulithUartReceive portId ports (some data₁) m =
        some (ports₁, .plain got₁.length (.bytes (got₁ ++ data₁.drop got₁.length))) ∧
      simulithUartReceive portId ports₁ (some data₂) n =
        some (ports₂, .plain got₂.length (.bytes (got₂ ++ data₂.drop got₂.length))) ∧
      simulithUartReceive portId ports (some data) (m + n) =
        some (ports₂, .plain (got₁ ++ got₂).length
          (.bytes (got₁ ++ got₂ ++ data.drop (got₁ ++ got₂).length))) := by
  let port₁ := (ports j).advance ((ports j).taken m)
  have hlen₂ := UartPort.length_take_taken port₁ n
  have hlen : ((ports j).unread.take ((ports j).taken m) ++
      port₁.unread.take (port₁.taken n)).length = (ports j).taken (m + n) := by
    rw [List.length_append, hlen₂, UartPort.length_take_taken, hp.taken_add hmn]
  refine ⟨Function.update ports j port₁, Function.update ports j (port₁.advance (port₁.taken n)),
    (ports j).unread.take ((ports j).taken m), port₁.unread.take (port₁.taken n), ?_, ?_, ?_⟩
  · rw [UartPort.length_take_taken]
    exact simulithUartReceive_eq hid hp hopen hm h₁
  · rw [simulithUartReceive, hid, hlen₂]
    exact access_update (UartPort.receive_eq (hp.advance ((ports j).taken m)) hopen hn
      (Nat.le_trans hp.taken_advance_le h₂))
  · rw [simulithUartReceive, hid, hlen]
    exact access_eq (hp.receive_add hopen hm hmn h)

/-- Port `j` hands out its waiting bytes as a queue, into buffers with room for them. -/
structure UartRing (portId : UInt8) (ports : UartPorts) (j : Fin maxUartPorts) : Prop where
  available : simulithUartAvailable portId ports =
    some (ports, .plain (ports j).unread.length .absent)
  available_le : (ports j).unread.length ≤ 1023
  receive : ∀ data maxLen, 1 ≤ maxLen → (ports j).taken maxLen ≤ data.length →
    ∃ tail, tail.toNat < 1024 ∧
      simulithUartReceive portId ports (some data) maxLen =
        some (Function.update ports j { ports j with rxBufferTail := tail },
          .plain ((ports j).taken maxLen)
            (.bytes ((ports j).unread.take ((ports j).taken maxLen) ++
              data.drop ((ports j).taken maxLen)))) ∧
      UartPort.unread { ports j with rxBufferTail := tail } =
        (ports j).unread.drop ((ports j).taken maxLen)
  receive_twice : ∀ (m n : UInt64) (data₁ data₂ data : List UInt8), 1 ≤ m → 1 ≤ n →
    m.toNat + n.toNat < 2 ^ 64 → (ports j).taken m ≤ data₁.length →
    (ports j).taken n ≤ data₂.length → (ports j).taken (m + n) ≤ data.length →
    ∃ ports₁ ports₂ got₁ got₂,
      simulithUartReceive portId ports (some data₁) m =
        some (ports₁, .plain got₁.length (.bytes (got₁ ++ data₁.drop got₁.length))) ∧
      simulithUartReceive portId ports₁ (some data₂) n =
        some (ports₂, .plain got₂.length (.bytes (got₂ ++ data₂.drop got₂.length))) ∧
      simulithUartReceive portId ports (some data) (m + n) =
        some (ports₂, .plain (got₁ ++ got₂).length
          (.bytes (got₁ ++ got₂ ++ data.drop (got₁ ++ got₂).length)))

/-- An open port with both positions in its buffer, whatever the buffer holds, is read as the list
of bytes between them. -/
theorem uart_ring (hid : unitIndex maxUartPorts portId = some j)
    (hopen : (ports j).initialized = true) (hhead : (ports j).rxBufferHead < 1024)
    (htail : (ports j).rxBufferTail < 1024) : UartRing portId ports j := by
  have hp : (ports j).Indexed :=
    ⟨UInt64.lt_iff_toNat_lt.mp hhead, UInt64.lt_iff_toNat_lt.mp htail⟩
  refine ⟨?_, Nat.le_of_lt_succ hp.length_unread_lt, fun data maxLen hmax hroom => ?_,
    fun m n data₁ data₂ data hm hn hmn h₁ h₂ h => ?_⟩
  · rw [simulithUartAvailable, hid]
    exact access_eq_self (UartPort.available_eq hp hopen)
  · have hle : (ports j).taken maxLen ≤ (ports j).unread.length := Nat.min_le_left _ _
    exact ⟨_, (hp.advance _).tail_lt, simulithUartReceive_eq hid hp hopen hmax hroom,
      hp.unread_advance hle⟩
  · exact simulithUartReceive_twice hid hp hopen hm hn hmn h₁ h₂ h

/-- With the head behind the tail, three bytes are waiting. -/
theorem uart_ring_wrapped :
    UartRing 3 (fun _ => { UartPort.zero with
      initialized := true, rxBufferHead := 1, rxBufferTail := 1022 }) ⟨3, by decide⟩ :=
  uart_ring rfl rfl (by decide) (by decide)

end Simulith
