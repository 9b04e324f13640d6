import StDevice.Foundation.Varint
import StDevice.Mqtt.Packet
import StDevice.Foundation.Framing
import StDevice.Mqtt.Framing
import StDevice.Easysetup.Ble.Message
import StDevice.Foundation.Run
import StDevice.Easysetup.Ble.Reassembly
import StDevice.Easysetup.Ble.RoundTrip
import StDevice.Easysetup.Ble.Replay
import StDevice.Easysetup.Http.Gate
import StDevice.Easysetup.Ble.Gate
import StDevice.Easysetup.Http.Parser
import StDevice.Easysetup.Http.Read
import StDevice.Foundation.Custody
import StDevice.Mqtt.Client
import StDevice.Mqtt.Custody
import StDevice.Mqtt.Ledger
import StDevice.Mqtt.Preservation
import StDevice.Mqtt.Ownership
import StDevice.Mqtt.Delivery
import StDevice.Mqtt.GivingUp
import StDevice.Mqtt.Inbound
import StDevice.Foundation.Handoff
import StDevice.Mqtt.Handoff
import StDevice.Main.Connection
import StDevice.Main.WorkQueue
import StDevice.Main.Truthful
import StDevice.Main.Command
import StDevice.Main.Registering
import StDevice.Main.Connected
import StDevice.Main.Restart
import StDevice.Easysetup.Http.Order
import StDevice.Mqtt.Bounds
import StDevice.Delivered.Device
import StDevice.Delivered.Capability
import StDevice.Delivered.Callback
import StDevice.Delivered.Memory
import StDevice.Delivered.Independence
import StDevice.Delivered.Packet
import StDevice.Mqtt.RoundTrip
import StDevice.Foundation.Ring
import StDevice.LogFile.File
import StDevice.LogFile.Ram
import StDevice.LogFile.Flash
import StDevice.Foundation.Memory
import StDevice.LogFile.Sync
import StDevice.LogFile.Manager
import StDevice.Os.EventGroup
import StDevice.LogFile.Task
import StDevice.Mqtt.Frame
import StDevice.Mqtt.Keepalive
import StDevice.Mqtt.PacketId
import StDevice.Foundation.Nonvolatile
import StDevice.NvData.ProvData
import StDevice.NvData.Whole
import StDevice.DumpLog.Dump
import StDevice.DumpLog.Content
import StDevice.DumpLog.Output
import StDevice.Mqtt.Reader
import StDevice.Easysetup.RefStep
import StDevice.NvData.Broker
import StDevice.Foundation.LinkedList
import StDevice.Main.LinkedQueue
import StDevice.Mqtt.PendingTask
import StDevice.Delivered.Registration
import StDevice.Easysetup.KeySession
import StDevice.Easysetup.Keyinfo
import StDevice.Easysetup.Ble.Provisioning
import StDevice.Mqtt.Subscribe
import StDevice.Mqtt.Connect
import StDevice.Foundation.Hex
import StDevice.Util.Uuid
import StDevice.Capability.Commands
import StDevice.NvData.Text
import StDevice.NvData.RoundTrip
import StDevice.Security.Base64
import StDevice.Security.Certificate
import StDevice.Security.WebToken
import StDevice.Security.WebTokenTruth
import StDevice.Foundation.Double
import StDevice.Foundation.JsonText
import StDevice.Capability.Events
import StDevice.Capability.SendFailed
import StDevice.Api.MiscInfo
import StDevice.Foundation.JsonMember
import StDevice.Foundation.BlockHeap
import StDevice.Api.Copies
import StDevice.Api.DeviceInfo
import StDevice.Api.OnboardingConfig
import StDevice.Easysetup.Http.PostText
import StDevice.Util.Mac
import StDevice.Util.Backoff
import StDevice.LogFile.Seek
import StDevice.Foundation.Loop
import StDevice.DumpLog.Progress
import StDevice.Easysetup.Http.Response
import StDevice.Mqtt.Retransmission
import StDevice.Foundation.Printing
import StDevice.Serialize.Cbor2Json
import StDevice.Serialize.Pieces
import StDevice.Foundation.Cbor
import StDevice.Tinycbor.Reading
import StDevice.Serialize.Structure
import StDevice.Mqtt.ChunkQueue
import StDevice.Foundation.DecimalPoint
import StDevice.Serialize.Numbers
import StDevice.Foundation.CborEncode
import StDevice.Tinycbor.Encoder
import StDevice.Serialize.Json2Cbor
import StDevice.Mqtt.Server
import StDevice.Mqtt.ServerConnect
import StDevice.Foundation.Overlay
import StDevice.Security.Storage
import StDevice.NvData.Reprovisioning
import StDevice.Foundation.BlockCipher
import StDevice.Security.Cipher
import StDevice.Easysetup.Http.Envelope
import StDevice.Easysetup.Ble.Encryption
