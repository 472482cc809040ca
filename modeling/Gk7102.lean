import Gk7102.AudioOutputThread
import Gk7102.Base64
import Gk7102.ChangedPixels
import Gk7102.CommandReceipt
import Gk7102.DelBlank
import Gk7102.H264Reads
import Gk7102.IniEnumeration
import Gk7102.IniLock
import Gk7102.IniRewrite
import Gk7102.KeyPresses
import Gk7102.LinkListRefinement
import Gk7102.MqttBounds
import Gk7102.MqttChannel
import Gk7102.MqttDelivery
import Gk7102.MqttIds
import Gk7102.MqttKeepalive
import Gk7102.MusicQueueCopy
import Gk7102.MusicQueueNavigation
import Gk7102.MusicQueueRefinement
import Gk7102.OsdBitmap
import Gk7102.OsdLayout
import Gk7102.PgWaveFile
import Gk7102.PlayerLocking
import Gk7102.PlayerReplies
import Gk7102.PlayerSnapshots
import Gk7102.PlayerUrl
import Gk7102.ReplyRefinement
import Gk7102.RtspReader
import Gk7102.SlotBounds
import Gk7102.SlotOwnership
import Gk7102.SongOwnership
import Gk7102.SpeechMusic
import Gk7102.VrEvents
import Gk7102.VrStop
import Gk7102.VrWait
import Gk7102.WifiScan
import Gk7102.XmlEdits
import Gk7102.XmlLengths
import Gk7102.XmlRoundTrip
import Gk7102.XmlSafety
