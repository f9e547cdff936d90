import Mindroid.Io.DataInputStream

/-!
# Messages of the runtime plugin

The class `Mindroid` is the plugin that connects two runtimes.  Its messages are framed by
their own length fields: the uri, the data and, of every type but one, an exception count.
-/

set_option autoImplicit false

namespace Mindroid

open Foundation

namespace Plugin

/-- `Mindroid::Message`.  A string is the list of its bytes. -/
structure Message where
  type : Int32
  uri : List UInt8
  transactionId : Int32
  what : Int32
  data : List UInt8
  size : Nat
  deriving DecidableEq

namespace Message

def MESSAGE_TYPE_TRANSACTION : Int32 := 1

def MESSAGE_TYPE_EXCEPTION_TRANSACTION : Int32 := 2

/-- 64MB. -/
def MAX_MESSAGE_SIZE : Nat := 64 * 1024 * 1024

/-- The text that `%s` makes of a string. -/
def cString (string : List UInt8) : String :=
  String.ofList ((string.takeWhile (· ≠ 0)).map fun byte => Char.ofNat byte.toNat)

def invalidSize (direction : String) (uri : List UInt8) (transactionId what size : Int32) :
    StreamThrown :=
  .ioException ("Invalid " ++ direction ++ " message size: uri=" ++ cString uri ++
    ", transactionId=" ++ toString transactionId.toInt ++ ", what=" ++ toString what.toInt ++
    ", size=" ++ toString size.toInt)

/-- The part of `write` that writes the number of exceptions, which is always 0. -/
def writeException (type : Int32) : DataOutputStream.Action :=
  if type ≠ MESSAGE_TYPE_TRANSACTION then DataOutputStream.writeInt 0 else pure ()

def write (message : Message) : DataOutputStream.Action :=
  if message.size > MAX_MESSAGE_SIZE then
    throw (invalidSize "output" message.uri message.transactionId message.what
      (Int32.ofNat message.size))
  else do
    DataOutputStream.writeInt message.type
    DataOutputStream.writeUTF message.uri
    DataOutputStream.writeInt message.transactionId
    DataOutputStream.writeInt message.what
    DataOutputStream.writeInt (Int32.ofNat message.size)
    DataOutputStream.write message.data 0 message.size
    writeException message.type
    DataOutputStream.flush

variable {σ : Type} (source : InputStream σ)

/-- The part of `newMessage` that reads the number and the name of exceptions. -/
def readException (type : Int32) : DataInputStream.Action σ Unit :=
  if type = MESSAGE_TYPE_TRANSACTION then
    pure ()
  else do
    let exceptionCount ← DataInputStream.readInt source
    if exceptionCount > 0 then
      let _exceptionClassName ← DataInputStream.readUTF source
      pure ()
    else
      pure ()

/-- The part of `newMessage` after the size has been read. -/
def readData (type : Int32) (uri : List UInt8) (transactionId what size : Int32) :
    DataInputStream.Action σ Message :=
  if size < 0 ∨ size > Int32.ofNat MAX_MESSAGE_SIZE then
    throw (invalidSize "input" uri transactionId what size)
  else do
    let data ← DataInputStream.readArray source size.toNatClampNeg
    readException source type
    pure
      { type := type
        uri := uri
        transactionId := transactionId
        what := what
        data := data
        size := size.toNatClampNeg }

def newMessage : DataInputStream.Action σ Message := do
  let type ← DataInputStream.readInt source
  let uri ← DataInputStream.readUTF source
  let transactionId ← DataInputStream.readInt source
  let what ← DataInputStream.readInt source
  let size ← DataInputStream.readInt source
  readData source type uri transactionId what size

/-! ## The format -/

/-- The messages that one side can send and the other side understands. -/
structure Sendable (message : Message) : Prop where
  type : message.type = MESSAGE_TYPE_TRANSACTION ∨
    message.type = MESSAGE_TYPE_EXCEPTION_TRANSACTION
  uri_ne_nil : message.uri ≠ []
  uri_bounded : message.uri.length ≤ 65535
  size_bounded : message.size ≤ MAX_MESSAGE_SIZE
  size_le_data : message.size ≤ message.data.length

/-- The message without the bytes of its array that are not data. -/
def sent (message : Message) : Message :=
  { message with data := message.data.take message.size }

/-- The exception count, which only messages of the type of transactions lack. -/
def trailer (message : Message) : List UInt8 :=
  if message.type ≠ MESSAGE_TYPE_TRANSACTION then DataOutputStream.intBytes 0 else []

/-- What `write` writes. -/
def encoding (message : Message) : List UInt8 :=
  DataOutputStream.intBytes message.type ++
    ((DataOutputStream.shortBytes (Int16.ofNat message.uri.length) ++ message.uri) ++
      (DataOutputStream.intBytes message.transactionId ++
        (DataOutputStream.intBytes message.what ++
          (DataOutputStream.intBytes (Int32.ofNat message.size) ++
            (message.data.take message.size ++ message.trailer)))))

theorem write_encodes {message : Message} (sendable : message.Sendable) :
    Encodes DataOutputStream.port message.write message.encoding := by
  have data : Encodes DataOutputStream.port (DataOutputStream.write message.data 0 message.size)
      (message.data.take message.size) := by
    have bytes : Encodes DataOutputStream.port
        (DataOutputStream.write message.data 0 message.size)
        ((message.data.drop 0).take message.size) :=
      DataOutputStream.write_encodes (by rw [Nat.zero_add]; exact sendable.size_le_data)
    rw [List.drop_zero] at bytes
    exact bytes
  have count : Encodes DataOutputStream.port (writeException message.type) message.trailer := by
    rw [writeException, trailer]
    split
    · exact DataOutputStream.writeInt_encodes 0
    · exact .nothing
  have finish := count.andThen DataOutputStream.flush_encodes
  rw [List.append_nil] at finish
  rw [write, if_neg (Nat.not_lt.mpr sendable.size_bounded), encoding]
  apply (DataOutputStream.writeInt_encodes message.type).andThen
  apply (DataOutputStream.writeUTF_encodes sendable.uri_ne_nil).andThen
  apply (DataOutputStream.writeInt_encodes message.transactionId).andThen
  apply (DataOutputStream.writeInt_encodes message.what).andThen
  apply (DataOutputStream.writeInt_encodes (Int32.ofNat message.size)).andThen
  exact data.andThen finish

theorem readException_decodes {content : σ → List UInt8} (delivers : source.Delivers content)
    (message : Message) :
    Decodes (DataInputStream.port content) .eofException (readException source message.type)
      message.trailer () := by
  rw [readException, trailer]
  by_cases transaction : message.type = MESSAGE_TYPE_TRANSACTION
  · rw [if_pos transaction, if_neg (fun other => other transaction)]
    exact .nothing ()
  · rw [if_neg transaction, if_pos transaction]
    have count := DataInputStream.readInt_decodes delivers 0
    have none : Decodes (DataInputStream.port content) StreamThrown.eofException
        (if (0 : Int32) > 0 then do
          let _exceptionClassName ← DataInputStream.readUTF source
          pure ()
        else pure ()) [] () := by
      rw [if_neg (by decide)]
      exact .nothing ()
    rw [← List.append_nil (DataOutputStream.intBytes 0)]
    exact count.andThen none

/-- A size that may be sent is read as it was written. -/
theorem size_received {size : Nat} (bounded : size ≤ MAX_MESSAGE_SIZE) :
    ¬ (Int32.ofNat size < 0 ∨ Int32.ofNat size > Int32.ofNat MAX_MESSAGE_SIZE) ∧
      (Int32.ofNat size).toNatClampNeg = size := by
  have small : size < 2 ^ 31 := Nat.lt_of_le_of_lt bounded (by decide)
  have value : (Int32.ofNat size).toInt = size := Int32.toInt_ofNat_of_lt small
  have limit : (Int32.ofNat MAX_MESSAGE_SIZE).toInt = MAX_MESSAGE_SIZE := by decide
  constructor
  · rw [gt_iff_lt, Int32.lt_iff_toInt_lt, Int32.lt_iff_toInt_lt, value, limit]
    simp only [MAX_MESSAGE_SIZE] at bounded ⊢
    rw [show (0 : Int32).toInt = 0 from rfl]
    omega
  · rw [← Int32.toNat_toInt, value, Int.toNat_natCast]

/-- `newMessage` reads what `write` wrote. -/
theorem newMessage_decodes {content : σ → List UInt8} (delivers : source.Delivers content)
    {message : Message} (sendable : message.Sendable) :
    Decodes (DataInputStream.port content) .eofException (newMessage source) message.encoding
      message.sent := by
  have size := size_received sendable.size_bounded
  have dataLength : (message.data.take message.size).length = message.size := by
    rw [List.length_take, Nat.min_eq_left sendable.size_le_data]
  have data : Decodes (DataInputStream.port content) StreamThrown.eofException
      (DataInputStream.readArray source message.size) (message.data.take message.size)
      (message.data.take message.size) := by
    have bytes := DataInputStream.readArray_decodes delivers
      (show (message.data.take message.size).length < 2 ^ 63 by
        rw [dataLength]
        exact Nat.lt_of_le_of_lt sendable.size_bounded (by decide))
    rw [dataLength] at bytes
    exact bytes
  have rest : Decodes (DataInputStream.port content) .eofException
      (readData source message.type message.uri message.transactionId message.what
        (Int32.ofNat message.size))
      (message.data.take message.size ++ message.trailer) message.sent := by
    rw [readData, if_neg size.1, size.2]
    exact data.andThen ((readException_decodes source delivers message).map fun _ => message.sent)
  rw [encoding]
  apply (DataInputStream.readInt_decodes delivers message.type).andThen
  apply (DataInputStream.readUTF_decodes delivers sendable.uri_bounded).andThen
  apply (DataInputStream.readInt_decodes delivers message.transactionId).andThen
  apply (DataInputStream.readInt_decodes delivers message.what).andThen
  exact (DataInputStream.readInt_decodes delivers (Int32.ofNat message.size)).andThen rest

/-- Messages that are written one after the other are read one after the other, and
nothing else is; a message that is cut off is not read. -/
theorem sequence_round_trip {content : σ → List UInt8} (delivers : source.Delivers content)
    (messages : List Message) (sendable : ∀ message ∈ messages, message.Sendable)
    (sink : OutputStream) :
    (∃ out code, messages.forM write (DataOutputStream.new sink) = .ok ((), out) ∧
      out.mOutputStream.bytes = sink.bytes ++ code ∧
      ∀ inputStream rest, content inputStream = code ++ rest →
        ∃ stream,
          (List.replicate messages.length (newMessage source)).mapM id
              (DataInputStream.new inputStream) = .ok (messages.map sent, stream) ∧
            content stream.mInputStream = rest) ∧
      ∀ message ∈ messages, ∃ out code, message.write (DataOutputStream.new sink) = .ok ((), out) ∧
        out.mOutputStream.bytes = sink.bytes ++ code ∧
        ∀ inputStream, content inputStream <+: code → content inputStream ≠ code →
          ∃ thrown, newMessage source (DataInputStream.new inputStream) = .error thrown ∧
            thrown.isIOException = true := by
  constructor
  · have written : Encodes DataOutputStream.port (messages.forM write)
        (messages.flatMap encoding) :=
      .each messages fun message member => write_encodes (sendable message member)
    have read : Decodes (DataInputStream.port content) StreamThrown.eofException
        ((List.replicate messages.length (newMessage source)).mapM id)
        (messages.flatMap encoding) (messages.map sent) :=
      .repeated messages fun message member => newMessage_decodes source delivers
        (sendable message member)
    rcases written.writes (DataOutputStream.new_valid sink) with ⟨out, writes, _, bytes⟩
    refine ⟨out, messages.flatMap encoding, writes, bytes, ?_⟩
    intro inputStream rest split
    rcases read.whole (DataInputStream.new_valid inputStream) split with
      ⟨stream, reads, _, remains⟩
    exact ⟨stream, reads, remains⟩
  · intro message member
    rcases (write_encodes (sendable message member)).writes (DataOutputStream.new_valid sink) with
      ⟨out, writes, _, bytes⟩
    refine ⟨out, message.encoding, writes, bytes, ?_⟩
    intro inputStream before different
    refine ⟨.eofException, ?_, rfl⟩
    exact (newMessage_decodes source delivers (sendable message member)).cut
      (DataInputStream.new_valid inputStream) before different

theorem readException_reads {content : σ → List UInt8} (delivers : source.Delivers content)
    (type : Int32) :
    DataInputStream.Reads content (readException source type) fun _ => True := by
  rw [readException]
  split
  · exact .pure trivial
  · apply (DataInputStream.readInt_reads delivers).andThen
    intro exceptionCount _
    split
    · exact (DataInputStream.readUTF_reads delivers).andThen fun _ _ => .pure trivial
    · exact .pure trivial

theorem readData_reads {content : σ → List UInt8} (delivers : source.Delivers content)
    (type : Int32) {uri : List UInt8} (bounded : uri.length ≤ 65535)
    (transactionId what size : Int32) :
    DataInputStream.Reads content (readData source type uri transactionId what size)
      fun message => message.uri.length ≤ 65535 := by
  rw [readData]
  split
  · exact .throw rfl
  · have small : size.toNatClampNeg < 2 ^ 63 :=
      Nat.lt_of_lt_of_le size.toNatClampNeg_lt (by decide)
    apply (DataInputStream.readArray_reads delivers small).andThen
    intro data _
    exact (readException_reads source delivers type).andThen fun _ _ => .pure bounded

/-- Whatever a stream delivers is a message or no message, and the latter is reported by an
`IOException`. -/
theorem newMessage_reads {content : σ → List UInt8} (delivers : source.Delivers content) :
    DataInputStream.Reads content (newMessage source) fun message =>
      message.uri.length ≤ 65535 := by
  apply (DataInputStream.readInt_reads delivers).andThen
  intro type _
  apply (DataInputStream.readUTF_reads delivers).andThen
  intro uri bounded
  apply (DataInputStream.readInt_reads delivers).andThen
  intro transactionId _
  apply (DataInputStream.readInt_reads delivers).andThen
  intro what _
  apply (DataInputStream.readInt_reads delivers).andThen
  intro size _
  exact readData_reads source delivers type bounded transactionId what size

/-- A transaction with two of three bytes of its array and an exception without data. -/
def transactionAndException : List Message :=
  [{ type := MESSAGE_TYPE_TRANSACTION
     uri := [109]
     transactionId := -1
     what := 7
     data := [1, 2, 3]
     size := 2 },
   { type := MESSAGE_TYPE_EXCEPTION_TRANSACTION
     uri := [109, 58]
     transactionId := 2
     what := 0
     data := []
     size := 0 }]

theorem transactionAndException_sendable :
    ∀ message ∈ transactionAndException, message.Sendable := by
  intro message member
  rcases List.mem_cons.mp member with rfl | last
  · exact ⟨.inl rfl, by decide, by decide, by decide, by decide⟩
  · rcases List.mem_singleton.mp last with rfl
    exact ⟨.inr rfl, by decide, by decide, by decide, by decide⟩

/-- Both messages arrive over a stream that delivers at most three bytes at a time. -/
theorem transactionAndException_arrive :
    (∃ out code,
      transactionAndException.forM write (DataOutputStream.new ⟨[], false⟩) = .ok ((), out) ∧
      out.mOutputStream.bytes = [] ++ code ∧
      ∀ inputStream rest, inputStream = code ++ rest →
        ∃ stream,
          (List.replicate 2 (newMessage (InputStream.chunked 3))).mapM id
              (DataInputStream.new inputStream) = .ok (transactionAndException.map sent, stream) ∧
            stream.mInputStream = rest) ∧
      ∀ message ∈ transactionAndException, ∃ out code,
        message.write (DataOutputStream.new ⟨[], false⟩) = .ok ((), out) ∧
        out.mOutputStream.bytes = [] ++ code ∧
        ∀ inputStream, inputStream <+: code → inputStream ≠ code →
          ∃ thrown,
            newMessage (InputStream.chunked 3) (DataInputStream.new inputStream) =
              .error thrown ∧ thrown.isIOException = true :=
  sequence_round_trip (InputStream.chunked 3) (InputStream.chunked_lawful (by decide)).delivers
    transactionAndException transactionAndException_sendable ⟨[], false⟩

end Message

end Plugin

end Mindroid
